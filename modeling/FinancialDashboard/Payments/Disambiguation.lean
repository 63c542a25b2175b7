import FinancialDashboard.Lib.Rounding
import FinancialDashboard.Payments.Tracking

/-!
# Which card a payment was for

A payment that the linker could not put on a card is given to one by
`resolve_cc_payment_account` (`services/cc_disambiguation.py`): to the only card of the bank,
to the only one billed for the amount, to the only one that still owes the amount, or to the
only one that still owes anything.  If none of these decides, a person is asked.

* `Decided`: what the tier that decides has to know of *all* the cards of the bank.
* `tally_spec`: what the loop over the statements counts.
* `resolve_never_guesses`: a payment is assigned only where a tier decides.

A total that reads as a signalling `NaN` is taken for a quiet one.
-/

namespace FinancialDashboard.Payments

open PyText Statements Sql Rounding Posting

/-! ### The resolver -/

/-- `_CandidateAccount`. -/
structure CandidateAccount where
  id : Nat
  label : String
  deriving DecidableEq, Repr

/-- A row of `transactions` that may be a payment.  The mask is what the linker goes by; the
resolver does not read it. -/
structure CardPayment where
  id : Nat
  bank : String
  direction : String
  amount : Option Rat
  emailType : Option String
  cardMask : Option String
  accountId : Option Nat
  deriving DecidableEq, Repr

/-- What the prompt shows. -/
structure DisambiguationPayload where
  txnId : Nat
  candidateAccountIds : List Nat
  candidateLabels : List (Nat × String)
  amount : Rat
  bank : String
  deriving DecidableEq, Repr

/-- What a `NaN` raises when it is compared. -/
structure InvalidOperation where
  deriving DecidableEq, Repr

/-- A total less what was paid. -/
inductive Remaining
  | finite (value : Rat)
  | infinite (positive : Bool)
  | nan
  deriving DecidableEq, Repr

namespace Remaining

/-- `remaining > 0`. -/
def positive : Remaining → Except InvalidOperation Bool
  | finite value => .ok (0 < value)
  | infinite positive => .ok positive
  | nan => .error {}

/-- `target <= remaining`. -/
def covers (target : Rat) : Remaining → Except InvalidOperation Bool
  | finite value => .ok (target ≤ value)
  | infinite positive => .ok positive
  | nan => .error {}

end Remaining

section

variable [UnicodeTables] [Readers]

/-- `_load_cc_candidates`, with the labels. -/
def loadCandidates (accounts : List Account) (bank : String) : List CandidateAccount :=
  (accounts.filter fun account => account.bank = bank && account.type = "credit_card").map
    fun account => ⟨account.id, account.label⟩

/-- `_latest_statements`. -/
def latestStatements (rows : List StatementUpload) (candidateIds : List Nat) :
    List StatementUpload :=
  latestPerAccount (select
    [fun upload => some (upload.accountId ∈ candidateIds),
      fun upload => (isNull upload.dueDate).not,
      fun upload => (isNull upload.totalAmountDue).not] rows)

/-- `_parse_outstanding`. -/
def parseOutstanding (upload : StatementUpload) : Option Remaining :=
  (upload.totalAmountDue.bind fun total => (parseAmount total).map (total, ·)).map fun
    | (_, .finite due) => .finite (roundSig 28 (due - upload.paymentPaidAmount.getD 0))
    | (total, .nonFinite) =>
      match parseDue total with
      | some (.infinite positive) => .infinite positive
      | _ => .nan

/-- What the loop of the last two tiers keeps. -/
structure Tally where
  outstandingMatches : List Nat
  accountsWithOutstanding : List Nat
  hasUntracked : Bool
  deriving DecidableEq, Repr

/-- One statement of the loop. -/
def tallyStep (target : Rat) (tally : Tally) (upload : StatementUpload) :
    Except InvalidOperation Tally :=
  match upload.paymentStatus, parseOutstanding upload with
  | none, _ | some _, none => .ok { tally with hasUntracked := true }
  | some _, some remaining => do
    let owing ← remaining.positive
    return {
      outstandingMatches := if remaining = .finite target
        then tally.outstandingMatches ++ [upload.accountId] else tally.outstandingMatches
      accountsWithOutstanding := if owing
        then tally.accountsWithOutstanding ++ [upload.accountId]
        else tally.accountsWithOutstanding
      hasUntracked := tally.hasUntracked }

/-- The tiers that go by what is outstanding. -/
def resolveByOutstanding (rows : List StatementUpload) (candidateIds : List Nat) (target : Rat) :
    Except InvalidOperation (Option Nat) :=
  let latest := latestStatements rows candidateIds
  let covered := latest.map (·.accountId)
  if ¬ (covered ⊆ candidateIds ∧ candidateIds ⊆ covered) then return none
  else do
    let tally ← latest.foldlM (tallyStep target) ⟨[], [], false⟩
    if tally.hasUntracked then return none
    match tally.outstandingMatches, tally.accountsWithOutstanding with
    | [account], _ => return some account
    | _, [account] =>
      match (latest.find? (·.accountId = account)).bind parseOutstanding with
      | some remaining => return if ← remaining.covers target then some account else none
      | none => return none
    | _, _ => return none

/-- `resolve_cc_payment_account`: the row it leaves, and the prompt to send. -/
def resolveCcPaymentAccount (accounts : List Account) (rows : List StatementUpload)
    (txn : CardPayment) : Except InvalidOperation (CardPayment × Option DisambiguationPayload) :=
  if txn.accountId.isSome || txn.direction ≠ "credit" ||
      !isCcPaymentReceivedEmail (txn.emailType.getD "") then return (txn, none)
  else
    match txn.amount with
    | none => return (txn, none)
    | some amount =>
      if amount ≤ 0 then return (txn, none)
      else
        match loadCandidates accounts txn.bank with
        | [] => return (txn, none)
        | [candidate] => return ({ txn with accountId := some candidate.id }, none)
        | candidates => do
          let candidateIds := candidates.map (·.id)
          match findCcAccountByTotalDue rows accounts txn.bank amount
            (some candidateIds) with
          | some account => return ({ txn with accountId := some account }, none)
          | none =>
            match ← resolveByOutstanding rows candidateIds amount with
            | some account => return ({ txn with accountId := some account }, none)
            | none =>
              return (txn, some ⟨txn.id, candidateIds, candidates.map fun c => (c.id, c.label),
                amount, txn.bank⟩)

/-! ### What a tier has to know -/

variable {rows : List StatementUpload} {candidateIds : List Nat} {amount : Rat}

/-- A statement was billed for exactly this. -/
def BilledFor (amount : Rat) (u : StatementUpload) : Prop :=
  InStatus activeStatuses u ∧ u.totalAmountDue.bind parseAmount = some (.finite amount)

/-- The latest statement of the account is tracked and readable, and this much is left of it. -/
def Owes (rows : List StatementUpload) (candidateIds : List Nat) (account : Nat)
    (remaining : Remaining) : Prop :=
  ∃ u ∈ latestStatements rows candidateIds, u.accountId = account ∧ u.paymentStatus ≠ none ∧
    parseOutstanding u = some remaining

/-- The tiers, each on all the cards of the bank. -/
inductive Decided (rows : List StatementUpload) (candidateIds : List Nat) (amount : Rat)
    (account : Nat) : Prop
  | sole (only : candidateIds = [account])
  | total (candidate : account ∈ candidateIds)
      (billed : ∃ u ∈ rows, u.accountId = account ∧ BilledFor amount u)
      (alone : ∀ u ∈ latestPerAccount rows, u.accountId ∈ candidateIds → BilledFor amount u →
        u.accountId = account)
  | outstanding (candidate : account ∈ candidateIds)
      (tracked : ∀ other ∈ candidateIds, ∃ remaining, Owes rows candidateIds other remaining)
      (exact : Owes rows candidateIds account (.finite amount))
      (alone : ∀ other, Owes rows candidateIds other (.finite amount) → other = account)
  | soleOutstanding (candidate : account ∈ candidateIds)
      (tracked : ∀ other ∈ candidateIds, ∃ remaining, Owes rows candidateIds other remaining)
      (owes : ∃ remaining, Owes rows candidateIds account remaining ∧
        remaining.positive = .ok true ∧ remaining.covers amount = .ok true)
      (alone : ∀ other remaining, Owes rows candidateIds other remaining →
        remaining.positive = .ok true → other = account)

/-! ### What the loop counts -/

/-- The statement is tracked, and its outstanding compares with a number. -/
def Tracked (u : StatementUpload) : Prop :=
  ∃ remaining owing, u.paymentStatus ≠ none ∧ parseOutstanding u = some remaining ∧
    remaining.positive = .ok owing

/-- Something is left of the statement. -/
def owing (u : StatementUpload) : Bool :=
  (parseOutstanding u).any fun remaining => remaining.positive = .ok true

/-- Exactly this is left of the statement. -/
def owesExactly (target : Rat) (u : StatementUpload) : Bool :=
  parseOutstanding u = some (.finite target)

/-- A tally of tracked statements only. -/
structure Counted (target : Rat) (start t : Tally) (latest : List StatementUpload) : Prop where
  clean : start.hasUntracked = false
  tracked : ∀ u ∈ latest, Tracked u
  matched : t.outstandingMatches =
    start.outstandingMatches ++ (latest.filter (owesExactly target)).map (·.accountId)
  owing : t.accountsWithOutstanding =
    start.accountsWithOutstanding ++ (latest.filter owing).map (·.accountId)

omit [UnicodeTables] in
theorem tallyStep_untracked {target : Rat} {t t' : Tally} {u : StatementUpload}
    (h : tallyStep target t u = .ok t') (htracked : t'.hasUntracked = false) :
    t.hasUntracked = false ∧ Tracked u ∧
      t'.outstandingMatches =
        t.outstandingMatches ++ ([u].filter (owesExactly target)).map (·.accountId) ∧
      t'.accountsWithOutstanding =
        t.accountsWithOutstanding ++ ([u].filter owing).map (·.accountId) := by
  unfold tallyStep at h
  cases hstatus : u.paymentStatus with
  | none =>
    rw [hstatus] at h
    cases h
    cases htracked
  | some status =>
    cases hout : parseOutstanding u with
    | none =>
      rw [hstatus, hout] at h
      cases h
      cases htracked
    | some remaining =>
      rw [hstatus, hout] at h
      obtain ⟨positive, hpositive, hret⟩ := bind_eq_ok.mp h
      cases hret
      refine ⟨htracked, ⟨remaining, positive, by simp [hstatus], hout, hpositive⟩, ?_, ?_⟩
      · by_cases hexact : remaining = .finite target
        · simp [owesExactly, hout, hexact]
        · simp [owesExactly, hout, hexact]
      · cases positive <;> simp [owing, hout, hpositive]

omit [UnicodeTables] in
/-- **The loop counts every statement**, if it finds all of them tracked. -/
theorem tally_spec {target : Rat} {latest : List StatementUpload} {start t : Tally}
    (h : latest.foldlM (tallyStep target) start = .ok t) (htracked : t.hasUntracked = false) :
    Counted target start t latest := by
  induction latest generalizing start with
  | nil =>
    cases h
    exact ⟨htracked, fun _ hu => (nomatch hu), by simp, by simp⟩
  | cons u latest ih =>
    rw [List.foldlM_cons] at h
    obtain ⟨next, hstep, hrest⟩ := bind_eq_ok.mp h
    have hcounted := ih hrest
    obtain ⟨hstart, hu, hmatched, howing⟩ := tallyStep_untracked hstep hcounted.clean
    refine ⟨hstart, ?_, ?_, ?_⟩
    · intro v hv
      rcases List.mem_cons.mp hv with rfl | hv
      · exact hu
      · exact hcounted.tracked v hv
    · rw [hcounted.matched, hmatched, List.append_assoc, ← List.map_append, ← List.filter_append]
      rfl
    · rw [hcounted.owing, howing, List.append_assoc, ← List.map_append, ← List.filter_append]
      rfl

/-! ### What decides -/

omit [UnicodeTables] [Readers] in
/-- The only one of a filter by account is the only account of that kind. -/
theorem unique_of_filter {l : List StatementUpload} {p : StatementUpload → Bool} {account : Nat}
    (h : (l.filter p).map (·.accountId) = [account]) :
    (∃ u ∈ l, u.accountId = account ∧ p u = true) ∧
      ∀ u ∈ l, p u = true → u.accountId = account := by
  constructor
  · have hmem : account ∈ (l.filter p).map (·.accountId) := h ▸ List.mem_singleton_self _
    obtain ⟨u, hu, haccount⟩ := List.mem_map.mp hmem
    obtain ⟨hl, hp⟩ := List.mem_filter.mp hu
    exact ⟨u, hl, haccount, hp⟩
  · intro u hu hp
    have hmem := List.mem_map_of_mem (f := (·.accountId)) (List.mem_filter.mpr ⟨hu, hp⟩)
    rw [h] at hmem
    exact List.mem_singleton.mp hmem

omit [UnicodeTables] in
theorem owesExactly_iff {u : StatementUpload} :
    owesExactly amount u = true ↔ parseOutstanding u = some (.finite amount) :=
  decide_eq_true_iff

omit [UnicodeTables] in
theorem owing_iff {u : StatementUpload} {remaining : Remaining}
    (h : parseOutstanding u = some remaining) :
    owing u = true ↔ remaining.positive = .ok true := by
  simp [owing, h]

/-- The first statement of an account is its only one. -/
theorem find?_latest {account : Nat} {u : StatementUpload}
    (hu : u ∈ latestStatements rows candidateIds) (haccount : u.accountId = account) :
    (latestStatements rows candidateIds).find? (·.accountId = account) = some u := by
  have hnodup : ((latestStatements rows candidateIds).map (·.accountId)).Nodup :=
    nodup_accounts _
  obtain ⟨v, hv⟩ : ∃ v, (latestStatements rows candidateIds).find? (·.accountId = account) =
      some v := by
    rw [← Option.isSome_iff_exists, List.find?_isSome]
    exact ⟨u, hu, decide_eq_true haccount⟩
  have hmem := List.mem_of_find?_eq_some hv
  have hkey : v.accountId = account := by simpa using List.find?_some hv
  have : v = u := List.inj_on_of_nodup_map hnodup hmem hu (hkey.trans haccount.symm)
  rw [hv, this]

/-- **The tiers on the outstanding decide.** -/
theorem decided_of_outstanding {account : Nat}
    (h : resolveByOutstanding rows candidateIds amount = .ok (some account)) :
    Decided rows candidateIds amount account := by
  unfold resolveByOutstanding at h
  dsimp only at h
  split_ifs at h with hcovered
  swap
  · cases h
  obtain ⟨tally, htally, h⟩ := bind_eq_ok.mp h
  cases huntracked : tally.hasUntracked with
  | true =>
    rw [huntracked] at h
    cases h
  | false =>
  rw [huntracked] at h
  simp only [Bool.false_eq_true, if_false] at h
  have hcounted := tally_spec htally huntracked
  have htracked : ∀ other ∈ candidateIds, ∃ remaining,
      Owes rows candidateIds other remaining := by
    intro other hother
    obtain ⟨u, hu, rfl⟩ := List.mem_map.mp (hcovered.2 hother)
    obtain ⟨remaining, _, hstatus, hout, _⟩ := hcounted.tracked u hu
    exact ⟨remaining, u, hu, rfl, hstatus, hout⟩
  have hcandidate : ∀ u ∈ latestStatements rows candidateIds, u.accountId ∈ candidateIds :=
    fun u hu => hcovered.1 (List.mem_map_of_mem hu)
  have hstatus : ∀ u ∈ latestStatements rows candidateIds, u.paymentStatus ≠ none := by
    intro u hu
    obtain ⟨_, _, hne, _⟩ := hcounted.tracked u hu
    exact hne
  have hmatched : tally.outstandingMatches =
      ((latestStatements rows candidateIds).filter (owesExactly amount)).map (·.accountId) :=
    hcounted.matched
  have howing : tally.accountsWithOutstanding =
      ((latestStatements rows candidateIds).filter owing).map (·.accountId) := hcounted.owing
  split at h
  · rename_i heq
    cases h
    obtain ⟨⟨u, hu, rfl, hexact⟩, halone⟩ := unique_of_filter (hmatched.symm.trans heq)
    refine .outstanding (hcandidate u hu) htracked
      ⟨u, hu, rfl, hstatus u hu, owesExactly_iff.mp hexact⟩ ?_
    rintro other ⟨v, hv, rfl, _, hout⟩
    exact halone v hv (owesExactly_iff.mpr hout)
  · rename_i heq _
    obtain ⟨⟨u, hu, rfl, hpositive⟩, halone⟩ := unique_of_filter (howing.symm.trans heq)
    rw [find?_latest hu rfl, Option.bind_some] at h
    obtain ⟨remaining, _, _, hout, _⟩ := hcounted.tracked u hu
    rw [hout] at h
    obtain ⟨covered, hcovers, h⟩ := bind_eq_ok.mp h
    cases covered with
    | false => cases h
    | true =>
      cases h
      refine .soleOutstanding (hcandidate u hu) htracked
        ⟨remaining, ⟨u, hu, rfl, hstatus u hu, hout⟩, (owing_iff hout).mp hpositive, hcovers⟩ ?_
      rintro other left ⟨v, hv, rfl, _, hleft⟩ hleftpos
      exact halone v hv ((owing_iff hleft).mpr hleftpos)
  · cases h

/-- **The tier on the total decides.** -/
theorem decided_of_total {accounts : List Account} {bank : String} {account : Nat}
    (h : findCcAccountByTotalDue rows accounts bank amount (some candidateIds) = some account) :
    Decided rows candidateIds amount account := by
  unfold findCcAccountByTotalDue at h
  dsimp only [Option.getD_some] at h
  split at h
  · next u heq =>
    cases h
    have hu : u ∈ comparedUploads rows candidateIds ∧
        u.totalAmountDue.bind parseAmount = some (.finite amount) := by
      have hmem : u ∈ (comparedUploads rows candidateIds).filter _ :=
        heq ▸ List.mem_singleton_self u
      obtain ⟨hmem, htotal⟩ := List.mem_filter.mp hmem
      exact ⟨hmem, of_decide_eq_true htotal⟩
    have halone : ∀ v ∈ comparedUploads rows candidateIds,
        v.totalAmountDue.bind parseAmount = some (.finite amount) → v = u := by
      intro v hv htotal
      have hmem : v ∈ (comparedUploads rows candidateIds).filter fun upload =>
          upload.totalAmountDue.bind parseAmount = some (.finite amount) :=
        List.mem_filter.mpr ⟨hv, decide_eq_true htotal⟩
      rw [heq] at hmem
      exact List.mem_singleton.mp hmem
    unfold comparedUploads at hu halone
    split_ifs at hu halone with hfew
    · exact absurd hu.1 List.not_mem_nil
    · obtain ⟨hrow, hclauses⟩ := mem_select.mp (latestPerAccount_spec hu.1).1
      have hactive : InStatus activeStatuses u :=
        holds_isIn.mp (hclauses (fun upload => isIn upload.paymentStatus activeStatuses) (by simp))
      have hcandidate : u.accountId ∈ candidateIds := by
        simpa using hclauses (fun upload => some (upload.accountId ∈ candidateIds)) (by simp)
      refine .total hcandidate ⟨u, hrow, rfl, hactive, hu.2⟩ fun v hv hvcandidate hbilled => ?_
      refine congrArg _ (halone v ?_ hbilled.2)
      have htotal : v.totalAmountDue ≠ none := fun hnone => by simp [BilledFor, hnone] at hbilled
      obtain ⟨_, due, hdue, _⟩ := latestPerAccount_spec hv
      have hdueDate := dueDate_ne_none (Option.isSome_iff_exists.mpr ⟨due, hdue⟩)
      unfold select
      refine latestPerAccount_filter hv (holds_all.mpr ?_)
      simp only [List.forall_mem_cons, List.not_mem_nil, not_isNull, holds_isIn]
      exact ⟨by simpa using hvcandidate, hbilled.1, hdueDate, htotal, by simp⟩
  · cases h

/-- **A payment is assigned only where a tier decides**, and is otherwise left as it was. -/
theorem resolve_never_guesses {accounts : List Account} {txn txn' : CardPayment}
    {payload : Option DisambiguationPayload}
    (h : resolveCcPaymentAccount accounts rows txn = .ok (txn', payload)) :
    txn' = txn ∨ ∃ account amount, txn' = { txn with accountId := some account } ∧
      payload = none ∧ txn.accountId = none ∧ txn.amount = some amount ∧ 0 < amount ∧
      Decided rows ((loadCandidates accounts txn.bank).map (·.id)) amount account := by
  obtain ⟨id, bank, direction, stated, emailType, mask, linked⟩ := txn
  unfold resolveCcPaymentAccount at h
  split_ifs at h with hgate
  · cases h
    exact .inl rfl
  have hnone : linked = none := by
    cases linked with
    | none => rfl
    | some account => simp at hgate
  cases stated with
  | none =>
    cases h
    exact .inl rfl
  | some amount =>
    dsimp only at h
    split_ifs at h with hpositive
    · cases h
      exact .inl rfl
    rw [not_le] at hpositive
    split at h
    · cases h
      exact .inl rfl
    · next candidate heq =>
      cases h
      exact .inr ⟨_, amount, rfl, rfl, hnone, rfl, hpositive, .sole (by rw [heq]; rfl)⟩
    · cases htotal : findCcAccountByTotalDue rows accounts bank amount
        (some ((loadCandidates accounts bank).map (·.id))) with
      | some account =>
        rw [htotal] at h
        cases h
        exact .inr ⟨_, amount, rfl, rfl, hnone, rfl, hpositive, decided_of_total htotal⟩
      | none =>
        rw [htotal] at h
        obtain ⟨found, hfound, h⟩ := bind_eq_ok.mp h
        cases found with
        | some account =>
          cases h
          exact .inr ⟨_, amount, rfl, rfl, hnone, rfl, hpositive, decided_of_outstanding hfound⟩
        | none =>
          cases h
          exact .inl rfl

end

/-! ### Two payments -/

def iciciPayment (amount : Rat) : CardPayment where
  id := 7
  bank := "icici"
  direction := "credit"
  amount := some amount
  emailType := some "icici_cc_payment"
  cardMask := none
  accountId := none

def iciciCard (id : Nat) : Account := ⟨id, "icici", "ICICI", "credit_card", some true⟩

/-- A bill of 500 of which 200 are paid. -/
def paidInPart : StatementUpload :=
  { statement 1 1 "20/05/2026" "500" .partiallyPaid with paymentPaidAmount := some 200 }

/-- A bill of 300 that is paid. -/
def paidUp : StatementUpload :=
  { statement 2 2 "21/05/2026" "300" .paid with paymentPaidAmount := some 300 }

/-- **A card is decided on by what the tiers on the outstanding do not ask for**, and without a
mask: the only card of the bank has no statement at all; a bill of 500 takes a payment of 500,
though 300 are left of it and the other card is not tracked. -/
theorem assigned_beside_outstanding :
    let _ := asciiTables
    let _ := plainReaders
    ((resolveCcPaymentAccount [iciciCard 1] [] (iciciPayment 500)).toOption.map (·.1.accountId) =
        some (some 1) ∧ ∀ remaining, ¬ Owes [] [1] 1 remaining) ∧
      ((resolveCcPaymentAccount [iciciCard 1, iciciCard 2] [paidInPart]
          (iciciPayment 500)).toOption.map (·.1.accountId) = some (some 1) ∧
        ¬ Owes [paidInPart] [1, 2] 1 (.finite 500) ∧
        ∀ remaining, ¬ Owes [paidInPart] [1, 2] 2 remaining) := by
  intro _ _
  have hlatest : latestStatements [paidInPart] [1, 2] = [paidInPart] := by decide +kernel
  have hout : parseOutstanding paidInPart = some (.finite 300) := by decide +kernel
  refine ⟨⟨by decide +kernel, ?_⟩, by decide +kernel, ?_, ?_⟩
  · rintro remaining ⟨u, hu, _⟩
    cases hu
  · rintro ⟨u, hu, _, _, hexact⟩
    rw [hlatest, List.mem_singleton] at hu
    rw [hu, hout] at hexact
    exact absurd hexact (by decide)
  · rintro remaining ⟨u, hu, haccount, _⟩
    rw [hlatest, List.mem_singleton] at hu
    rw [hu] at haccount
    exact absurd haccount (by decide)

/-- The sole card with something left takes a payment of less. -/
theorem sole_outstanding_assigned :
    let _ := asciiTables
    let _ := plainReaders
    ∃ txn', resolveCcPaymentAccount [iciciCard 1, iciciCard 2] [paidInPart, paidUp]
        (iciciPayment 250) = .ok (txn', none) ∧ txn'.accountId = some 1 ∧
      Decided [paidInPart, paidUp] [1, 2] 250 1 := by
  intro _ _
  have hresolve : resolveCcPaymentAccount [iciciCard 1, iciciCard 2] [paidInPart, paidUp]
      (iciciPayment 250) = .ok ({ iciciPayment 250 with accountId := some 1 }, none) := by
    decide +kernel
  refine ⟨_, hresolve, rfl, ?_⟩
  rcases resolve_never_guesses hresolve with hsame | ⟨account, amount, hset, _, _, hamount, _, h⟩
  · exact absurd hsame (by decide)
  · cases hset
    cases hamount
    exact h

end FinancialDashboard.Payments
