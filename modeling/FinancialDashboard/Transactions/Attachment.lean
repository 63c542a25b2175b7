import FinancialDashboard.Transactions.SmsPipeline
import Mathlib.Logic.Function.Basic

/-!
# Many messages, one row

A message is attached in three steps with other work between them: it reads a match,
claims the row's slot (`claim_transaction_source_slot` of
`services/email_attachments.py`, a conditional `UPDATE`), and flushes its enrichment.
The match may be stale by the time of the claim.

Three routes attach: `merge_transaction`, live or on a reparse; the explicit email
resolution; and the explicit SMS resolution, which claims no slot and leaves the one
it finds.  A transaction that fails is rolled back with its claim, and what it blocked
goes on as if it had not been: the runs here are of the transactions that commit.

* `Slot.run`: a filled slot never changes owner.
* `arbitrated_of_run`: an open slot goes to one of the messages that claim it; the
  others write nothing and link nothing.
* `uninterrupted`: the three steps in a row are `merge_transaction`.
-/

namespace FinancialDashboard.Transactions

open PyTime PyText Transition

/-! ### The messages -/

/-- How a message comes to a row. -/
inductive Attachment
  | live (message : Message)
  | resolveSms (source : Nat) (txn : TxnData) (target : Nat)
  | resolveEmail (source : Nat) (txn : TxnData) (target : Nat)

namespace Attachment

def channel : Attachment → Channel
  | live message => message.channel
  | resolveSms _ _ _ => .sms
  | resolveEmail _ _ _ => .email

def source : Attachment → Nat
  | live message => message.source
  | resolveSms source _ _ | resolveEmail source _ _ => source

def txn : Attachment → TxnData
  | live message => message.txn
  | resolveSms _ txn _ | resolveEmail _ txn _ => txn

/-- The id `apply_transaction_enrichment` is given. -/
def claimId : Attachment → Option Nat
  | live message => some message.source
  | resolveSms _ _ _ => none
  | resolveEmail source _ _ => some source

end Attachment

/-- How far an attaching message is. -/
inductive Stage
  | matched | claimed | enriched | conflicted
  deriving DecidableEq, Repr

/-- A message on its way; `row` is the matched row as it was read. -/
inductive Session
  | idle
  /-- No match: the message is inserted, deferred or refused. -/
  | elsewhere
  | attaching (stage : Stage) (row : Transaction) (kind : MatchKind)
  deriving DecidableEq

/-! ### The writes -/

variable {t t' : TxnTable} {row r : Transaction} {channel : Channel}

theorem clash_setSlot_left {a b : Transaction} {source : Nat} :
    Clash (setSlot a channel source) b ↔ Clash a b := by
  cases channel <;> rfl

theorem clash_setSlot_right {a b : Transaction} {source : Nat} :
    Clash a (setSlot b channel source) ↔ Clash a b := by
  cases channel <;> rfl

@[simp] theorem id_setSlot {source : Nat} : (setSlot row channel source).id = row.id := by
  cases channel <;> rfl

theorem slot_setSlot {source : Nat} (c : Channel) :
    (setSlot row channel source).slot c = if c = channel then some source else row.slot c := by
  cases channel <;> cases c <;> rfl

/-- `UPDATE transactions SET slot = source WHERE id = id AND (slot IS NULL OR slot = source)`. -/
def writeSlot (id : Nat) (channel : Channel) (source : Nat) (r : Transaction) : Transaction :=
  if r.id = id ∧ (r.slot channel = none ∨ r.slot channel = some source) then
    setSlot r channel source
  else r

theorem id_writeSlot (id source : Nat) : (writeSlot id channel source r).id = r.id := by
  unfold writeSlot
  split_ifs <;> simp

theorem clash_writeSlot {a b : Transaction} {id source : Nat} :
    Clash (writeSlot id channel source a) (writeSlot id channel source b) ↔ Clash a b := by
  unfold writeSlot
  split_ifs <;> simp [clash_setSlot_left, clash_setSlot_right]

/-- The claim's write; a slot that was read as filled is not written. -/
def TxnTable.claim (t : TxnTable) (row : Transaction) (channel : Channel) (source : Option Nat) :
    TxnTable :=
  match source with
  | none => t
  | some source =>
    if (row.slot channel).isSome then t
    else
      { rows := t.rows.map (writeSlot row.id channel source)
        ids := by
          rw [List.pairwise_map]
          exact t.ids.imp fun h => by rwa [id_writeSlot, id_writeSlot]
        references := by
          rw [List.pairwise_map]
          exact t.references.imp fun h => by rwa [clash_writeSlot] }

/-- The row object after a claim that succeeded. -/
def held (row : Transaction) (channel : Channel) (source : Option Nat) : Transaction :=
  match source with
  | none => row
  | some source => if (row.slot channel).isSome then row else setSlot row channel source

/-- `UPDATE` of the columns that changed since the row was loaded. -/
def flushed (loaded changed stored : Transaction) : Transaction :=
  { stored with
    transactionDate := if changed.transactionDate = loaded.transactionDate
      then stored.transactionDate else changed.transactionDate
    transactionTime := if changed.transactionTime = loaded.transactionTime
      then stored.transactionTime else changed.transactionTime
    counterparty := if changed.counterparty = loaded.counterparty
      then stored.counterparty else changed.counterparty
    cardMask := if changed.cardMask = loaded.cardMask then stored.cardMask else changed.cardMask
    accountMask := if changed.accountMask = loaded.accountMask
      then stored.accountMask else changed.accountMask
    referenceNumber := if changed.referenceNumber = loaded.referenceNumber
      then stored.referenceNumber else changed.referenceNumber
    channel := if changed.channel = loaded.channel then stored.channel else changed.channel
    balance := if changed.balance = loaded.balance then stored.balance else changed.balance
    rawDescription := if changed.rawDescription = loaded.rawDescription
      then stored.rawDescription else changed.rawDescription
    transactionTimeIsReceivedTime :=
      if changed.transactionTimeIsReceivedTime = loaded.transactionTimeIsReceivedTime
      then stored.transactionTimeIsReceivedTime else changed.transactionTimeIsReceivedTime
    source := if changed.source = loaded.source then stored.source else changed.source }

theorem slot_flushed (loaded changed : Transaction) (c : Channel) :
    (flushed loaded changed r).slot c = r.slot c := by
  cases c <;> rfl

/-! ### The steps -/

variable [UnicodeTables]

namespace Attachment

/-- The row the message is to be attached to, as the route finds it. -/
def select (t : TxnTable) : Attachment → Option (Transaction × MatchKind)
  | live message =>
    match findMatch t.rows message.txn message.channel (some message.source) with
    | .matched row kind => some (row, kind)
    | _ => none
  | resolveSms _ txn target =>
    match mergeTarget t txn (some target) with
    | .ok row => some (row, .standard)
    | .error _ => none
  | resolveEmail source txn target =>
    (t.rows.find? (·.id = target)).bind fun row =>
      if t.rows.all (·.emailId ≠ some source) && row.emailId.isNone &&
          qualifiesAsExplicitMatch t.rows row txn then some (row, .standard)
      else none

/-- The enrichment of the row the message holds. -/
def enrich (a : Attachment) (row : Transaction) (kind : MatchKind) : Transaction :=
  applyDiff row a.txn a.channel (computeAppliedEnrichmentDiff row a.txn a.channel kind)

end Attachment

structure World where
  table : TxnTable
  session : Nat → Session
  /-- Whose enrichment was flushed, and to which row. -/
  written : List (Nat × Nat)
  /-- The row each message was linked to. -/
  link : Nat → Option Nat

namespace World

def set (w : World) (i : Nat) (s : Session) : World :=
  { w with session := Function.update w.session i s }

end World

inductive Event
  | read (i : Nat)
  | claim (i : Nat)
  | enrich (i : Nat)
  /-- Other work on the table: rows are added and edited, no slot is touched. -/
  | edit (t : TxnTable)

/-- The rows of `t` are still there, with the slots they had. -/
def KeepsSlots (t t' : TxnTable) : Prop :=
  ∀ r ∈ t.rows, ∃ r' ∈ t'.rows, r'.id = r.id ∧ r'.smsMessageId = r.smsMessageId ∧
    r'.emailId = r.emailId

instance (t t' : TxnTable) : Decidable (KeepsSlots t t') :=
  inferInstanceAs (Decidable (∀ r ∈ t.rows, ∃ r' ∈ t'.rows, _ ∧ _ ∧ _))

variable (att : Nat → Attachment)

def attachStep (w : World) : Event → Option World
  | .read i =>
    match w.session i with
    | .idle =>
      match (att i).select w.table with
      | some (row, kind) => some (w.set i (.attaching .matched row kind))
      | none => some (w.set i .elsewhere)
    | _ => none
  | .claim i =>
    match w.session i with
    | .attaching .matched row kind =>
      match claimTransactionSourceSlot w.table row (att i).channel (att i).claimId with
      | some _ =>
        some { w.set i (.attaching .claimed row kind) with
          table := w.table.claim row (att i).channel (att i).claimId }
      | none => some (w.set i (.attaching .conflicted row kind))
    | _ => none
  | .enrich i =>
    match w.session i with
    | .attaching .claimed row kind =>
      let loaded := held row (att i).channel (att i).claimId
      (w.table.rows.find? (·.id = row.id)).bind fun stored =>
        match w.table.updateRow (flushed loaded ((att i).enrich loaded kind) stored) with
        | .ok t' =>
          some { w.set i (.attaching .enriched row kind) with
            table := t'
            written := (i, row.id) :: w.written
            link := Function.update w.link i (some row.id) }
        | .error _ => none
    | _ => none
  | .edit t' => if KeepsSlots w.table t' then some { w with table := t' } else none

def attaching : System World Event := ⟨attachStep att⟩

/-- No message has begun. -/
def World.start (t : TxnTable) : World := ⟨t, fun _ => .idle, [], fun _ => none⟩

/-- What the caller gets: a lost claim is a deferral, or a conflict the explicit
resolution raises. -/
def Session.conflict : Session → Option MergeResult
  | .attaching .conflicted row _ => some (.deferred .sourceSlotConflict [row.id])
  | _ => none

/-! ### Slots and the steps -/

/-- The stored row `id` has the message `s` in the slot of `c`. -/
def Slot (t : TxnTable) (id : Nat) (c : Channel) (s : Nat) : Prop :=
  ∃ r ∈ t.rows, r.id = id ∧ r.slot c = some s

section

omit [UnicodeTables]

variable {id s x : Nat} {c : Channel}

theorem Slot.unique (h : Slot t id c s) (g : Slot t id c x) : s = x := by
  obtain ⟨r, hr, hid, hs⟩ := h
  obtain ⟨q, hq, hqid, hx⟩ := g
  obtain rfl := TxnTable.eq_of_id hr hq (hid.trans hqid.symm)
  exact Option.some.inj (hs.symm.trans hx)

theorem not_slot_of_open (hr : r ∈ t.rows) (hopen : r.slot c = none) : ¬ Slot t r.id c s := by
  rintro ⟨q, hq, hid, hs⟩
  obtain rfl := TxnTable.eq_of_id hq hr hid
  rw [hopen] at hs
  cases hs

/-- **A claim fills one slot and leaves the filled ones.** -/
theorem slot_claim_iff (hopen : row.slot channel = none) {source : Nat} :
    Slot (t.claim row channel (some source)) id c s ↔
      Slot t id c s ∨ (id = row.id ∧ c = channel ∧ s = source ∧
        ∃ r ∈ t.rows, r.id = row.id ∧ (r.slot channel = none ∨ r.slot channel = some source)) := by
  have hrows : (t.claim row channel (some source)).rows =
      t.rows.map (writeSlot row.id channel source) := by
    unfold TxnTable.claim
    simp [hopen]
  unfold Slot
  rw [hrows]
  constructor
  · rintro ⟨q, hq, hid, hs⟩
    obtain ⟨r, hr, rfl⟩ := List.mem_map.mp hq
    rw [id_writeSlot] at hid
    unfold writeSlot at hs
    split_ifs at hs with hwrite
    · rw [slot_setSlot] at hs
      split_ifs at hs with hc
      · exact .inr ⟨hid.symm.trans hwrite.1, hc, (Option.some.inj hs).symm, r, hr, hwrite⟩
      · exact .inl ⟨r, hr, hid, hs⟩
    · exact .inl ⟨r, hr, hid, hs⟩
  · rintro (⟨r, hr, hid, hs⟩ | ⟨rfl, rfl, rfl, r, hr, hid, hfree⟩)
    · refine ⟨_, List.mem_map.mpr ⟨r, hr, rfl⟩, by rw [id_writeSlot, hid], ?_⟩
      unfold writeSlot
      split_ifs with hwrite
      · rw [slot_setSlot]
        split_ifs with hc
        · subst hc
          rcases hwrite.2 with hnone | hsame
          · rw [hnone] at hs
            cases hs
          · exact hsame.symm.trans hs
        · exact hs
      · exact hs
    · refine ⟨_, List.mem_map.mpr ⟨r, hr, rfl⟩, by rw [id_writeSlot, hid], ?_⟩
      unfold writeSlot
      rw [if_pos ⟨hid, hfree⟩, slot_setSlot, if_pos rfl]

theorem present_claim_iff {source : Option Nat} :
    (∃ r ∈ (t.claim row channel source).rows, r.id = id) ↔ ∃ r ∈ t.rows, r.id = id := by
  unfold TxnTable.claim
  cases source with
  | none => rfl
  | some source =>
    dsimp only
    split_ifs
    · rfl
    · simp [id_writeSlot]

/-- A flush moves no slot. -/
theorem slot_updateRow_iff {stored e : Transaction} (h : t.updateRow e = .ok t')
    (hr : stored ∈ t.rows) (hid : e.id = stored.id) (hslot : ∀ c, e.slot c = stored.slot c) :
    Slot t' id c s ↔ Slot t id c s := by
  unfold TxnTable.updateRow at h
  split_ifs at h
  obtain rfl := Except.ok.inj h
  unfold Slot TxnTable.replaceRow
  constructor
  · rintro ⟨q, hq, hqid, hs⟩
    obtain ⟨r, hrmem, rfl⟩ := List.mem_map.mp hq
    split_ifs at hqid hs with heq
    · exact ⟨stored, hr, hid.symm.trans hqid, (hslot c).symm.trans hs⟩
    · exact ⟨r, hrmem, hqid, hs⟩
  · rintro ⟨r, hrmem, hrid, hs⟩
    by_cases heq : r.id = e.id
    · obtain rfl := TxnTable.eq_of_id hrmem hr (heq.trans hid)
      exact ⟨e, List.mem_map.mpr ⟨r, hrmem, if_pos heq⟩, hid.trans hrid, (hslot c).trans hs⟩
    · exact ⟨r, List.mem_map.mpr ⟨r, hrmem, if_neg heq⟩, hrid, hs⟩

theorem present_updateRow_iff {e : Transaction} (h : t.updateRow e = .ok t') :
    (∃ r ∈ t'.rows, r.id = id) ↔ ∃ r ∈ t.rows, r.id = id := by
  unfold TxnTable.updateRow at h
  split_ifs at h
  obtain rfl := Except.ok.inj h
  have hids := TxnTable.ids_replaceRow t.rows e
  constructor
  · rintro ⟨r, hr, rfl⟩
    have hmem : r.id ∈ (TxnTable.replaceRow t.rows e).map (·.id) := List.mem_map_of_mem hr
    rw [hids] at hmem
    simpa using hmem
  · rintro ⟨r, hr, rfl⟩
    have hmem : r.id ∈ t.rows.map (·.id) := List.mem_map_of_mem hr
    rw [← hids] at hmem
    simpa using hmem

theorem KeepsSlots.slot (h : KeepsSlots t t') (hs : Slot t id c s) : Slot t' id c s := by
  obtain ⟨r, hr, rfl, hslot⟩ := hs
  obtain ⟨q, hq, hid, hsms, hemail⟩ := h r hr
  refine ⟨q, hq, hid, ?_⟩
  cases c
  · exact hsms.trans hslot
  · exact hemail.trans hslot

theorem KeepsSlots.of_slot (h : KeepsSlots t t') (hpresent : ∃ r ∈ t.rows, r.id = id)
    (hs : Slot t' id c s) : Slot t id c s := by
  obtain ⟨r, hr, rfl⟩ := hpresent
  obtain ⟨q, hq, hid, hsms, hemail⟩ := h r hr
  obtain ⟨q', hq', hid', hslot⟩ := hs
  obtain rfl := TxnTable.eq_of_id hq hq' (hid.trans hid'.symm)
  refine ⟨r, hr, rfl, ?_⟩
  cases c
  · exact hsms.symm.trans hslot
  · exact hemail.symm.trans hslot

end

/-! ### What a step does -/

variable {att} {w w' : World} {event : Event}

inductive AttachStepped (att : Nat → Attachment) (w : World) : Event → World → Prop
  | selected {i : Nat} {row : Transaction} {kind : MatchKind} (idle : w.session i = .idle)
      (found : (att i).select w.table = some (row, kind)) :
      AttachStepped att w (.read i) (w.set i (.attaching .matched row kind))
  | passed {i : Nat} (idle : w.session i = .idle) (found : (att i).select w.table = none) :
      AttachStepped att w (.read i) (w.set i .elsewhere)
  | won {i : Nat} {row held : Transaction} {kind : MatchKind}
      (matched : w.session i = .attaching .matched row kind)
      (claimed : claimTransactionSourceSlot w.table row (att i).channel (att i).claimId =
        some held) :
      AttachStepped att w (.claim i) { w.set i (.attaching .claimed row kind) with
        table := w.table.claim row (att i).channel (att i).claimId }
  | lost {i : Nat} {row : Transaction} {kind : MatchKind}
      (matched : w.session i = .attaching .matched row kind)
      (refused : claimTransactionSourceSlot w.table row (att i).channel (att i).claimId = none) :
      AttachStepped att w (.claim i) (w.set i (.attaching .conflicted row kind))
  | flushed {i : Nat} {row stored e : Transaction} {kind : MatchKind} {t' : TxnTable}
      (claimed : w.session i = .attaching .claimed row kind) (mem : stored ∈ w.table.rows)
      (same : e.id = stored.id) (slots : ∀ c, e.slot c = stored.slot c)
      (update : w.table.updateRow e = .ok t') :
      AttachStepped att w (.enrich i) { w.set i (.attaching .enriched row kind) with
        table := t'
        written := (i, row.id) :: w.written
        link := Function.update w.link i (some row.id) }
  | edited {t' : TxnTable} (keeps : KeepsSlots w.table t') :
      AttachStepped att w (.edit t') { w with table := t' }

theorem attachStepped_of_attachStep (h : attachStep att w event = some w') :
    AttachStepped att w event w' := by
  cases event with
  | read i =>
    unfold attachStep at h
    dsimp only at h
    split at h
    · rename_i hidle
      split at h
      · rename_i row kind hfound
        obtain rfl := Option.some.inj h
        exact .selected hidle hfound
      · rename_i hfound
        obtain rfl := Option.some.inj h
        exact .passed hidle hfound
    · cases h
  | claim i =>
    unfold attachStep at h
    dsimp only at h
    split at h
    · rename_i row kind hmatched
      split at h
      · rename_i held hclaimed
        obtain rfl := Option.some.inj h
        exact .won hmatched hclaimed
      · rename_i hrefused
        obtain rfl := Option.some.inj h
        exact .lost hmatched hrefused
    · cases h
  | enrich i =>
    unfold attachStep at h
    dsimp only at h
    split at h
    · rename_i row kind hclaimed
      obtain ⟨stored, hfind, h⟩ := Option.bind_eq_some_iff.mp h
      split at h
      · rename_i t' hupdate
        obtain rfl := Option.some.inj h
        exact .flushed (e := flushed _ _ _) hclaimed (List.mem_of_find?_eq_some hfind) rfl
          (slot_flushed _ _) hupdate
      · cases h
    · cases h
  | edit t' =>
    unfold attachStep at h
    dsimp only at h
    split_ifs at h with hkeeps
    obtain rfl := Option.some.inj h
    exact .edited hkeeps

theorem mem_of_select {a : Attachment} {kind : MatchKind} (h : a.select t = some (row, kind)) :
    row ∈ t.rows := by
  unfold Attachment.select at h
  split at h
  · split at h
    · rename_i hfind
      obtain ⟨rfl, rfl⟩ := Prod.mk.inj (Option.some.inj h)
      exact mem_of_findMatch hfind
    · cases h
  · split at h
    · rename_i row hchosen
      obtain ⟨rfl, rfl⟩ := Prod.mk.inj (Option.some.inj h)
      unfold mergeTarget at hchosen
      dsimp only at hchosen
      split at hchosen
      · cases hchosen
      · rename_i hfind
        split_ifs at hchosen
        obtain rfl := Except.ok.inj hchosen
        exact List.mem_of_find?_eq_some hfind
    · cases h
  · obtain ⟨target, hfind, h⟩ := Option.bind_eq_some_iff.mp h
    split_ifs at h
    obtain ⟨rfl, rfl⟩ := Prod.mk.inj (Option.some.inj h)
    exact List.mem_of_find?_eq_some hfind

/-- **A filled slot never changes owner**, whoever steps. -/
theorem Slot.step {id s : Nat} {c : Channel} (hs : Slot w.table id c s)
    (h : AttachStepped att w event w') : Slot w'.table id c s := by
  cases h with
  | selected => exact hs
  | passed => exact hs
  | won matched claimed =>
    rename_i i row held kind
    show Slot (w.table.claim row (att i).channel (att i).claimId) id c s
    cases hclaim : (att i).claimId with
    | none => exact hs
    | some source =>
      cases hopen : row.slot (att i).channel with
      | none => exact (slot_claim_iff hopen).mpr (.inl hs)
      | some owner =>
        unfold TxnTable.claim
        simpa [hopen] using hs
  | lost => exact hs
  | flushed claimed mem same slots update => exact (slot_updateRow_iff update mem same slots).mpr hs
  | edited keeps => exact keeps.slot hs

theorem Slot.run {ok : World → Event → Prop} {id s : Nat} {c : Channel}
    (hs : Slot w.table id c s) (h : (attaching att).Run ok w w') : Slot w'.table id c s :=
  h.invariant (I := fun w => Slot w.table id c s)
    (fun _ _ _ hs _ hstep => hs.step (attachStepped_of_attachStep hstep)) hs

/-! ### Who wins an open slot -/

/-- The message claims the slot it saw open on the row `id`, and is at the stage. -/
def SawOpen (a : Attachment) (session : Session) (stage : Stage) (id : Nat) (c : Channel) : Prop :=
  ∃ row kind, session = .attaching stage row kind ∧ row.id = id ∧ a.channel = c ∧
    row.slot c = none ∧ a.claimId ≠ none

/-- The stages a message reaches by winning. -/
def Stage.won : Stage → Prop
  | claimed | enriched => True
  | matched | conflicted => False

/-- A message that saw the slot open has won it for `s`. -/
def Winner (att : Nat → Attachment) (w : World) (id : Nat) (c : Channel) (s : Nat) : Prop :=
  ∃ j stage, SawOpen (att j) (w.session j) stage id c ∧ stage.won ∧ (att j).source = s

/-- What holds while messages attach. -/
structure Arbitrated (att : Nat → Attachment) (w : World) : Prop where
  present : ∀ i stage row kind, w.session i = .attaching stage row kind →
    ∃ r ∈ w.table.rows, r.id = row.id
  won : ∀ i stage id c, SawOpen (att i) (w.session i) stage id c → stage.won →
    Slot w.table id c (att i).source
  lost : ∀ i id c, SawOpen (att i) (w.session i) .conflicted id c →
    ∃ s, s ≠ (att i).source ∧ Slot w.table id c s
  winner : ∀ i stage id c s, SawOpen (att i) (w.session i) stage id c → Slot w.table id c s →
    Winner att w id c s
  quiet : ∀ i id, (i, id) ∈ w.written ∨ w.link i = some id →
    ∃ row kind, w.session i = .attaching .enriched row kind ∧ row.id = id

omit [UnicodeTables] in
theorem arbitrated_start (t : TxnTable) : Arbitrated att (.start t) where
  present _ _ _ _ h := by cases h
  won _ _ _ _ h := by
    obtain ⟨_, _, h, -⟩ := h
    cases h
  lost _ _ _ h := by
    obtain ⟨_, _, h, -⟩ := h
    cases h
  winner _ _ _ _ _ h := by
    obtain ⟨_, _, h, -⟩ := h
    cases h
  quiet _ _ h := by
    rcases h with h | h
    · cases h
    · cases h

omit [UnicodeTables] in
theorem claimId_eq {a : Attachment} (h : a.claimId ≠ none) : a.claimId = some a.source := by
  cases a with
  | live message => rfl
  | resolveSms source txn target => exact absurd rfl h
  | resolveEmail source txn target => rfl

omit [UnicodeTables] in
theorem SawOpen.present {i id : Nat} {stage : Stage} {c : Channel} (h : Arbitrated att w)
    (hsaw : SawOpen (att i) (w.session i) stage id c) : ∃ r ∈ w.table.rows, r.id = id := by
  obtain ⟨row, kind, hsession, rfl, -⟩ := hsaw
  exact h.present i stage row kind hsession

/-- What a message's next session brings to the arbitration; `t` is the next table. -/
structure Fits (att : Nat → Attachment) (w : World) (t : TxnTable) (i : Nat) (session : Session) :
    Prop where
  present : ∀ stage row kind, session = .attaching stage row kind →
    ∃ r ∈ w.table.rows, r.id = row.id
  won : ∀ stage id c, SawOpen (att i) session stage id c → stage.won →
    Slot t id c (att i).source
  lost : ∀ id c, SawOpen (att i) session .conflicted id c →
    ∃ s, s ≠ (att i).source ∧ Slot t id c s
  winner : ∀ stage id c s, SawOpen (att i) session stage id c → Slot w.table id c s →
    Winner att w id c s
  keeps : ∀ stage id c, SawOpen (att i) (w.session i) stage id c → stage.won →
    ∃ stage', stage'.won ∧ SawOpen (att i) session stage' id c

omit [UnicodeTables] in
/-- **One message moves on**: the arbitration holds if its session fits and a newly
filled slot has a winner. -/
theorem Arbitrated.move {i : Nat} {session : Session} (h : Arbitrated att w)
    (hfits : Fits att w w'.table i session)
    (hsessions : w'.session = Function.update w.session i session)
    (hpresent : ∀ id, (∃ r ∈ w.table.rows, r.id = id) → ∃ r ∈ w'.table.rows, r.id = id)
    (hslot : ∀ id c s, Slot w.table id c s → Slot w'.table id c s)
    (hnew : ∀ id c s, (∃ r ∈ w.table.rows, r.id = id) → Slot w'.table id c s →
      Slot w.table id c s ∨ Winner att w' id c s)
    (hquiet : ∀ j id, (j, id) ∈ w'.written ∨ w'.link j = some id →
      ∃ row kind, w'.session j = .attaching .enriched row kind ∧ row.id = id) :
    Arbitrated att w' := by
  have hself : w'.session i = session := by rw [hsessions, Function.update_self]
  have hother : ∀ j, j ≠ i → w'.session j = w.session j := fun j hj => by
    rw [hsessions, Function.update_of_ne hj]
  have hwinner : ∀ id c s, Winner att w id c s → Winner att w' id c s := by
    rintro id c s ⟨j, stage, hsaw, hwon, hs⟩
    by_cases hj : j = i
    · subst hj
      obtain ⟨stage', hwon', hsaw'⟩ := hfits.keeps stage id c hsaw hwon
      exact ⟨j, stage', hself ▸ hsaw', hwon', hs⟩
    · exact ⟨j, stage, (hother j hj).symm ▸ hsaw, hwon, hs⟩
  -- a session of the new world is the new one or an old one
  have hfitsAt : ∀ j, Fits att w w'.table j (w'.session j) := by
    intro j
    by_cases hj : j = i
    · subst hj
      exact hself.symm ▸ hfits
    · rw [hother j hj]
      refine ⟨h.present j, fun stage id c hsaw hwon => hslot _ _ _ (h.won j stage id c hsaw hwon),
        fun id c hsaw => ?_, h.winner j, fun stage id c hsaw hwon => ⟨stage, hwon, hsaw⟩⟩
      obtain ⟨s, hne, hs⟩ := h.lost j id c hsaw
      exact ⟨s, hne, hslot _ _ _ hs⟩
  refine ⟨fun j stage row kind hsession => hpresent _ ((hfitsAt j).present stage row kind hsession),
    fun j => (hfitsAt j).won, fun j => (hfitsAt j).lost, ?_, hquiet⟩
  intro j stage id c s hsaw hs
  have hrow : ∃ r ∈ w.table.rows, r.id = id := by
    obtain ⟨row, kind, hsession, rfl, -⟩ := hsaw
    exact (hfitsAt j).present stage row kind hsession
  rcases hnew id c s hrow hs with hold | hwon
  · exact hwinner id c s ((hfitsAt j).winner stage id c s hsaw hold)
  · exact hwon

omit [UnicodeTables] in
/-- What a message has done stays done while another moves. -/
theorem Arbitrated.quiet_update {i : Nat} {session : Session} (h : Arbitrated att w)
    (hi : ∀ row kind, w.session i ≠ .attaching .enriched row kind) (j id : Nat)
    (hdone : (j, id) ∈ w.written ∨ w.link j = some id) :
    ∃ row kind, Function.update w.session i session j = .attaching .enriched row kind ∧
      row.id = id := by
  obtain ⟨row, kind, hsession, hid⟩ := h.quiet j id hdone
  have hj : j ≠ i := by
    rintro rfl
    exact hi row kind hsession
  exact ⟨row, kind, by rw [Function.update_of_ne hj, hsession], hid⟩

omit [UnicodeTables] in
/-- A claim is refused to a message that saw the slot open and comes second. -/
theorem owner_of_refused {a : Attachment}
    (h : claimTransactionSourceSlot t row a.channel a.claimId = none)
    (hpresent : ∃ r ∈ t.rows, r.id = row.id) :
    ∃ s, s ≠ a.source ∧ Slot t row.id a.channel s := by
  obtain ⟨r, hr, hid⟩ := hpresent
  have hclaim : a.claimId ≠ none := by
    intro hnone
    rw [hnone] at h
    cases h
  rw [claimId_eq hclaim] at h
  unfold claimTransactionSourceSlot at h
  dsimp only at h
  split_ifs at h with hfilled hany
  have hnot : ¬ ((r.slot a.channel).isNone ∨ r.slot a.channel = some a.source) := by
    intro hfree
    exact hany (List.any_eq_true.mpr ⟨r, hr, by simpa [hid] using hfree⟩)
  cases hslot : r.slot a.channel with
  | none => simp [hslot] at hnot
  | some s =>
    refine ⟨s, ?_, r, hr, hid, hslot⟩
    rintro rfl
    simp [hslot] at hnot

omit [UnicodeTables] in
/-- A claim that goes through found the slot open, or the message's own. -/
theorem free_of_claimed {source : Nat} {claimed : Transaction} (hopen : row.slot channel = none)
    (h : claimTransactionSourceSlot t row channel (some source) = some claimed) :
    ∃ r ∈ t.rows, r.id = row.id ∧ (r.slot channel = none ∨ r.slot channel = some source) := by
  unfold claimTransactionSourceSlot at h
  simp only [hopen, Option.isSome_none, Bool.false_eq_true, if_false] at h
  split_ifs at h with hany
  obtain ⟨r, hr, hfree⟩ := List.any_eq_true.mp hany
  exact ⟨r, hr, by simpa using hfree⟩

omit [UnicodeTables] in
/-- A claim of a message that does not claim, or saw the slot filled, writes nothing. -/
theorem claim_of_not_open {source : Option Nat} (h : ¬ (row.slot channel = none ∧ source ≠ none)) :
    t.claim row channel source = t := by
  unfold TxnTable.claim
  cases source with
  | none => rfl
  | some source =>
    have hfilled : row.slot channel ≠ none := fun hopen => h ⟨hopen, Option.some_ne_none _⟩
    simp [Option.isSome_iff_ne_none.mpr hfilled]

omit [UnicodeTables] in
theorem sawOpen_iff {a : Attachment} {stage stage' : Stage} {kind : MatchKind} {id : Nat}
    {c : Channel} : SawOpen a (.attaching stage' row kind) stage id c ↔
      stage = stage' ∧ row.id = id ∧ a.channel = c ∧ row.slot c = none ∧ a.claimId ≠ none := by
  constructor
  · rintro ⟨_, _, heq, h⟩
    cases heq
    exact ⟨rfl, h⟩
  · rintro ⟨rfl, h⟩
    exact ⟨row, kind, rfl, h⟩

omit [UnicodeTables] in
theorem not_sawOpen_elsewhere {a : Attachment} {stage : Stage} {id : Nat} {c : Channel} :
    ¬ SawOpen a .elsewhere stage id c := by
  rintro ⟨_, _, heq, -⟩
  cases heq

omit [UnicodeTables] in
theorem not_sawOpen_idle {a : Attachment} {stage : Stage} {id : Nat} {c : Channel} :
    ¬ SawOpen a .idle stage id c := by
  rintro ⟨_, _, heq, -⟩
  cases heq

omit [UnicodeTables] in
theorem fits_elsewhere {i : Nat} (hidle : w.session i = .idle) :
    Fits att w w.table i .elsewhere where
  present _ _ _ heq := by cases heq
  won _ _ _ hsaw := absurd hsaw not_sawOpen_elsewhere
  lost _ _ hsaw := absurd hsaw not_sawOpen_elsewhere
  winner _ _ _ _ hsaw := absurd hsaw not_sawOpen_elsewhere
  keeps _ _ _ hsaw := absurd (hidle ▸ hsaw) not_sawOpen_idle

omit [UnicodeTables] in
/-- An attaching message that goes to its next stage fits, if it has what the stage
promises. -/
theorem fits_of_stage {i : Nat} {stage stage' : Stage} {kind : MatchKind} {t' : TxnTable}
    (h : Arbitrated att w) (hsession : w.session i = .attaching stage row kind)
    (hwon : stage'.won → row.slot (att i).channel = none → (att i).claimId ≠ none →
      Slot t' row.id (att i).channel (att i).source)
    (hlost : stage' = .conflicted → row.slot (att i).channel = none → (att i).claimId ≠ none →
      ∃ s, s ≠ (att i).source ∧ Slot t' row.id (att i).channel s)
    (hkeeps : stage.won → stage'.won) :
    Fits att w t' i (.attaching stage' row kind) := by
  refine ⟨?_, ?_, ?_, ?_, ?_⟩
  · rintro _ _ _ heq
    cases heq
    exact h.present i stage row kind hsession
  · intro _ id c hsaw hstage
    obtain ⟨rfl, rfl, rfl, hopen, hclaim⟩ := sawOpen_iff.mp hsaw
    exact hwon hstage hopen hclaim
  · intro id c hsaw
    obtain ⟨heq, rfl, rfl, hopen, hclaim⟩ := sawOpen_iff.mp hsaw
    exact hlost heq.symm hopen hclaim
  · intro _ id c s hsaw hs
    obtain ⟨-, hopen⟩ := sawOpen_iff.mp hsaw
    refine h.winner i stage id c s ?_ hs
    rw [hsession]
    exact sawOpen_iff.mpr ⟨rfl, hopen⟩
  · intro _ id c hsaw hstage
    rw [hsession] at hsaw
    obtain ⟨rfl, hopen⟩ := sawOpen_iff.mp hsaw
    exact ⟨stage', hkeeps hstage, sawOpen_iff.mpr ⟨rfl, hopen⟩⟩

omit [UnicodeTables] in
/-- The claim that fills a slot makes its message the winner. -/
theorem arbitrated_of_claim {i : Nat} {claimed : Transaction} {kind : MatchKind}
    (h : Arbitrated att w) (hmatched : w.session i = .attaching .matched row kind)
    (hclaimed : claimTransactionSourceSlot w.table row (att i).channel (att i).claimId =
      some claimed) :
    Arbitrated att { w.set i (.attaching .claimed row kind) with
      table := w.table.claim row (att i).channel (att i).claimId } := by
  have hnotDone : ∀ row kind, w.session i ≠ .attaching .enriched row kind := by
    intro _ _ hsession
    rw [hmatched] at hsession
    cases hsession
  by_cases hwrites : row.slot (att i).channel = none ∧ (att i).claimId ≠ none
  · obtain ⟨hopen, hclaim⟩ := hwrites
    have hsource := claimId_eq hclaim
    rw [hsource] at hclaimed ⊢
    have hfree := free_of_claimed hopen hclaimed
    have hfilled : Slot (w.table.claim row (att i).channel (some (att i).source)) row.id
        (att i).channel (att i).source := (slot_claim_iff hopen).mpr (.inr ⟨rfl, rfl, rfl, hfree⟩)
    have hfits : Fits att w (w.table.claim row (att i).channel (some (att i).source)) i
        (.attaching .claimed row kind) :=
      fits_of_stage h hmatched (fun _ _ _ => hfilled) nofun nofun
    refine h.move hfits rfl (fun _ => present_claim_iff.mpr)
      (fun _ _ _ hs => (slot_claim_iff hopen).mpr (.inl hs)) ?_ (h.quiet_update hnotDone)
    intro id c s _ hs
    rcases (slot_claim_iff hopen).mp hs with hold | ⟨rfl, rfl, rfl, -⟩
    · exact .inl hold
    · refine .inr ⟨i, .claimed, ?_, trivial, rfl⟩
      show SawOpen (att i) (Function.update w.session i _ i) _ _ _
      rw [Function.update_self]
      exact sawOpen_iff.mpr ⟨rfl, rfl, rfl, hopen, hclaim⟩
  · rw [claim_of_not_open hwrites]
    have hfits : Fits att w w.table i (.attaching .claimed row kind) :=
      fits_of_stage h hmatched (fun _ hopen hclaim => absurd ⟨hopen, hclaim⟩ hwrites) nofun nofun
    exact h.move hfits rfl (fun _ hp => hp) (fun _ _ _ hs => hs) (fun _ _ _ _ hs => .inl hs)
      (h.quiet_update hnotDone)

omit [UnicodeTables] in
/-- A flush moves no slot, and its message had won or seen the slot filled. -/
theorem arbitrated_of_flush {i : Nat} {stored e : Transaction} {kind : MatchKind}
    (h : Arbitrated att w) (hclaimed : w.session i = .attaching .claimed row kind)
    (hmem : stored ∈ w.table.rows) (hsame : e.id = stored.id)
    (hslots : ∀ c, e.slot c = stored.slot c) (hupdate : w.table.updateRow e = .ok t') :
    Arbitrated att { w.set i (.attaching .enriched row kind) with
      table := t'
      written := (i, row.id) :: w.written
      link := Function.update w.link i (some row.id) } := by
  have hslot : ∀ id c s, Slot t' id c s ↔ Slot w.table id c s := fun _ _ _ =>
    slot_updateRow_iff hupdate hmem hsame hslots
  have hfits : Fits att w t' i (.attaching .enriched row kind) := by
    refine fits_of_stage h hclaimed (fun _ hopen hclaim => ?_) nofun fun _ => trivial
    refine (hslot _ _ _).mpr (h.won i .claimed row.id _ ?_ trivial)
    rw [hclaimed]
    exact sawOpen_iff.mpr ⟨rfl, rfl, rfl, hopen, hclaim⟩
  refine h.move hfits rfl (fun _ => (present_updateRow_iff hupdate).mpr)
    (fun _ _ _ => (hslot _ _ _).mpr) (fun _ _ _ _ hs => .inl ((hslot _ _ _).mp hs)) ?_
  intro j id hdone
  have hdone : (j, id) ∈ (i, row.id) :: w.written ∨
      Function.update w.link i (some row.id) j = some id := hdone
  by_cases hj : j = i
  · subst hj
    refine ⟨row, kind, Function.update_self .., ?_⟩
    rcases hdone with hwritten | hlink
    · rcases List.mem_cons.mp hwritten with heq | hold
      · exact (congrArg Prod.snd heq).symm
      · obtain ⟨_, _, hsession, -⟩ := h.quiet j id (.inl hold)
        rw [hclaimed] at hsession
        cases hsession
    · rw [Function.update_self] at hlink
      exact Option.some.inj hlink
  · refine h.quiet_update (i := i) (fun _ _ hsession => by rw [hclaimed] at hsession; cases hsession)
      j id ?_
    rcases hdone with hwritten | hlink
    · rcases List.mem_cons.mp hwritten with heq | hold
      · exact absurd (congrArg Prod.fst heq) hj
      · exact .inl hold
    · rw [Function.update_of_ne hj] at hlink
      exact .inr hlink

/-- **Every step keeps the arbitration.** -/
theorem arbitrated_of_stepped (h : Arbitrated att w) (hstep : AttachStepped att w event w') :
    Arbitrated att w' := by
  cases hstep with
  | @selected i row kind idle found =>
    have hrow := mem_of_select found
    have hfits : Fits att w w.table i (.attaching .matched row kind) := by
      refine ⟨?_, ?_, ?_, ?_, fun _ _ _ hsaw => absurd (idle ▸ hsaw) not_sawOpen_idle⟩
      · rintro _ _ _ heq
        cases heq
        exact ⟨row, hrow, rfl⟩
      · intro stage id c hsaw hwon
        obtain ⟨rfl, -⟩ := sawOpen_iff.mp hsaw
        exact hwon.elim
      · intro id c hsaw
        obtain ⟨heq, -⟩ := sawOpen_iff.mp hsaw
        cases heq
      · intro stage id c s hsaw hs
        obtain ⟨-, rfl, rfl, hopen, -⟩ := sawOpen_iff.mp hsaw
        exact absurd hs (not_slot_of_open hrow hopen)
    exact h.move hfits rfl (fun _ hp => hp) (fun _ _ _ hs => hs) (fun _ _ _ _ hs => .inl hs)
      (h.quiet_update fun _ _ hsession => by rw [idle] at hsession; cases hsession)
  | passed idle found =>
    exact h.move (fits_elsewhere idle) rfl (fun _ hp => hp) (fun _ _ _ hs => hs)
      (fun _ _ _ _ hs => .inl hs)
      (h.quiet_update fun _ _ hsession => by rw [idle] at hsession; cases hsession)
  | won matched claimed => exact arbitrated_of_claim h matched claimed
  | @lost i row kind matched refused =>
    have hpresent := h.present i _ row kind matched
    have hfits : Fits att w w.table i (.attaching .conflicted row kind) :=
      fits_of_stage h matched nofun (fun _ _ _ => owner_of_refused refused hpresent) nofun
    exact h.move hfits rfl (fun _ hp => hp) (fun _ _ _ hs => hs) (fun _ _ _ _ hs => .inl hs)
      (h.quiet_update fun _ _ hsession => by rw [matched] at hsession; cases hsession)
  | flushed claimed mem same slots update => exact arbitrated_of_flush h claimed mem same slots update
  | edited keeps =>
    refine ⟨fun i stage row kind hsession => ?_, fun i stage id c hsaw hwon =>
      keeps.slot (h.won i stage id c hsaw hwon), fun i id c hsaw => ?_,
      fun i stage id c s hsaw hs => h.winner i stage id c s hsaw
        (keeps.of_slot (SawOpen.present h hsaw) hs), h.quiet⟩
    · obtain ⟨r, hr, hid⟩ := h.present i stage row kind hsession
      obtain ⟨q, hq, hqid, -⟩ := keeps r hr
      exact ⟨q, hq, hqid.trans hid⟩
    · obtain ⟨s, hne, hs⟩ := h.lost i id c hsaw
      exact ⟨s, hne, keeps.slot hs⟩

theorem arbitrated_of_run {ok : World → Event → Prop}
    (h : (attaching att).Run ok (.start t) w) : Arbitrated att w :=
  h.invariant (I := Arbitrated att)
    (fun _ _ _ ha _ hstep => arbitrated_of_stepped ha (attachStepped_of_attachStep hstep))
    (arbitrated_start t)

/-- The slot of the row `id` has gone to one of the messages that claimed it after
they had seen it open; the others wrote nothing, linked nothing and, once they
tried, were put off. -/
def GoesToOne (att : Nat → Attachment) (w : World) (id : Nat) (c : Channel) : Prop :=
  ∃ s, Slot w.table id c s ∧ Winner att w id c s ∧
    ∀ j stage, SawOpen (att j) (w.session j) stage id c → (att j).source ≠ s →
      (∀ row, (j, row) ∉ w.written) ∧ w.link j = none ∧
        (stage ≠ .matched → (w.session j).conflict = some (.deferred .sourceSlotConflict [id]))

omit [UnicodeTables] in
/-- **An open slot goes to one message** as soon as one that saw it open has tried. -/
theorem goesToOne_of_arbitrated (h : Arbitrated att w) {i id : Nat} {stage : Stage} {c : Channel}
    (hsaw : SawOpen (att i) (w.session i) stage id c) (htried : stage ≠ .matched) :
    GoesToOne att w id c := by
  have hlosers : ∀ s, Slot w.table id c s → ∀ j stage,
      SawOpen (att j) (w.session j) stage id c → (att j).source ≠ s → ¬ stage.won :=
    fun s hs j stage hsaw hne hwon => hne ((h.won j stage id c hsaw hwon).unique hs)
  obtain ⟨s, hs⟩ : ∃ s, Slot w.table id c s := by
    cases stage with
    | matched => exact absurd rfl htried
    | claimed => exact ⟨_, h.won i _ id c hsaw trivial⟩
    | enriched => exact ⟨_, h.won i _ id c hsaw trivial⟩
    | conflicted =>
      obtain ⟨s, -, hs⟩ := h.lost i id c hsaw
      exact ⟨s, hs⟩
  refine ⟨s, hs, h.winner i stage id c s hsaw hs, fun j stage hj hne => ?_⟩
  have hnot := hlosers s hs j stage hj hne
  have hnothing : ∀ row, ¬ ((j, row) ∈ w.written ∨ w.link j = some row) := by
    intro row hdone
    obtain ⟨_, _, hsession, -⟩ := h.quiet j row hdone
    rw [hsession] at hj
    obtain ⟨rfl, -⟩ := sawOpen_iff.mp hj
    exact hnot trivial
  refine ⟨fun row hwritten => hnothing row (.inl hwritten), ?_, fun htried => ?_⟩
  · cases hlink : w.link j with
    | none => rfl
    | some row => exact absurd (.inr hlink) (hnothing row)
  · obtain ⟨row, kind, hsession, rfl, -⟩ := hj
    cases stage with
    | matched => exact absurd rfl htried
    | claimed => exact absurd trivial hnot
    | enriched => exact absurd trivial hnot
    | conflicted => rw [hsession]; rfl

/-- **Claims of slots are exclusive.**  However the messages' steps and other work
interleave, a filled slot keeps its owner from any state of the run on, and a slot
that a claiming message saw open has gone to one of them once one has tried. -/
theorem slot_claims_exclusive {w₀ : World} (att : Nat → Attachment) (t : TxnTable)
    (h₀ : (attaching att).Run System.always (.start t) w₀)
    (h : (attaching att).Run System.always w₀ w) :
    (∀ id c s, Slot w₀.table id c s → Slot w.table id c s) ∧
      ∀ i stage id c, SawOpen (att i) (w.session i) stage id c → stage ≠ .matched →
        GoesToOne att w id c :=
  ⟨fun _ _ _ hs => hs.run h, fun _ _ _ _ hsaw htried =>
    goesToOne_of_arbitrated (arbitrated_of_run (h₀.trans h)) hsaw htried⟩

/-! ### One message alone -/

omit [UnicodeTables] in
theorem flushed_self (loaded : Transaction) (incoming : TxnData) (diff : EnrichmentDiff) :
    flushed loaded (applyDiff loaded incoming channel diff) loaded =
      applyDiff loaded incoming channel diff := by
  have hcolumn : ∀ {α : Type} [DecidableEq α] (old new : α),
      (if new = old then old else new) = new := by
    intro α _ old new
    split_ifs with h
    · exact h.symm
    · rfl
  unfold flushed applyDiff
  simp only [hcolumn]

omit [UnicodeTables] in
theorem rows_claim {m : Message} (hrow : row ∈ t.rows) :
    (t.claim row m.channel (some m.source)).rows = TxnTable.replaceRow t.rows (claimedRow row m) := by
  have hsame : ∀ r ∈ t.rows, r.id = (claimedRow row m).id → r = row := fun r hr hid =>
    TxnTable.eq_of_id hr hrow (hid.trans id_claimedRow)
  unfold TxnTable.claim TxnTable.replaceRow
  dsimp only
  split_ifs with hfilled
  · symm
    refine (List.map_congr_left fun r hr => ?_).trans t.rows.map_id
    split_ifs with hid
    · rw [hsame r hr hid]
      unfold claimedRow
      rw [if_pos hfilled]
      rfl
    · rfl
  · have hopen : row.slot m.channel = none := by simpa using hfilled
    refine List.map_congr_left fun r hr => ?_
    split_ifs with hid
    · rw [hsame r hr hid]
      unfold writeSlot claimedRow
      rw [if_pos ⟨rfl, .inl hopen⟩, if_neg hfilled]
    · unfold writeSlot
      rw [if_neg fun h => hid (h.1.trans id_claimedRow.symm)]

omit [UnicodeTables] in
theorem replaceRow_replaceRow {a b : Transaction} (h : a.id = b.id) (rows : List Transaction) :
    TxnTable.replaceRow (TxnTable.replaceRow rows a) b = TxnTable.replaceRow rows b := by
  unfold TxnTable.replaceRow
  rw [List.map_map]
  refine List.map_congr_left fun r _ => ?_
  by_cases hr : r.id = b.id
  · simp [hr, h]
  · simp [hr, h]

/-- **The three steps in a row are `merge_transaction`.** -/
theorem uninterrupted {i : Nat} {m : Message} {kind : MatchKind} {result : MergeResult}
    (hatt : att i = .live m) (hidle : w.session i = .idle)
    (hfind : findMatch w.table.rows m.txn m.channel (some m.source) = .matched row kind)
    (hmerge : ingest w.table m = .ok (t', result)) :
    ∃ w', (attaching att).exec w [.read i, .claim i, .enrich i] = some w' ∧
      w'.table.rows = t'.rows ∧ w'.link i = some row.id := by
  have hrow := mem_of_findMatch hfind
  rw [ingest_eq, hfind] at hmerge
  dsimp only at hmerge
  rw [applyTransactionEnrichment_of_mem hrow] at hmerge
  cases hupdate : w.table.updateRow (enrichedRow row m kind) with
  | error e =>
    rw [hupdate] at hmerge
    cases hmerge
  | ok merged =>
    rw [hupdate] at hmerge
    obtain ⟨rfl, -⟩ := Prod.mk.inj (Except.ok.inj hmerge)
    have hrows := rows_claim (m := m) hrow
    -- the claimed row is the stored one
    have hstored : (w.table.claim row m.channel (some m.source)).rows.find? (·.id = row.id) =
        some (claimedRow row m) := by
      refine TxnTable.find_of_mem ?_ id_claimedRow
      rw [hrows]
      exact List.mem_map.mpr ⟨row, hrow, if_pos id_claimedRow.symm⟩
    have hflushed : flushed (claimedRow row m) ((Attachment.live m).enrich (claimedRow row m) kind)
        (claimedRow row m) = enrichedRow row m kind := flushed_self _ _ _
    obtain ⟨t₂, hsecond⟩ : ∃ t₂, (w.table.claim row m.channel (some m.source)).updateRow
        (enrichedRow row m kind) = .ok t₂ := by
      refine TxnTable.updateRow_of_not_clash fun r hr hne => ?_
      rw [hrows] at hr
      obtain ⟨q, hq, rfl⟩ := List.mem_map.mp hr
      split_ifs at hne ⊢ with hid
      · exact absurd (id_claimedRow.trans id_enrichedRow.symm) hne
      · exact TxnTable.not_clash_of_updateRow hupdate q hq hne
    have hsecondRows := TxnTable.rows_of_updateRow hsecond
    rw [hrows, replaceRow_replaceRow (id_claimedRow.trans id_enrichedRow.symm),
      ← TxnTable.rows_of_updateRow hupdate] at hsecondRows
    have hread : attachStep att w (.read i) = some (w.set i (.attaching .matched row kind)) := by
      unfold attachStep
      simp [hidle, hatt, Attachment.select, hfind]
    have hclaim : attachStep att (w.set i (.attaching .matched row kind)) (.claim i) =
        some { w.set i (.attaching .claimed row kind) with
          table := w.table.claim row m.channel (some m.source) } := by
      have hclaimed := claimTransactionSourceSlot_of_mem (m := m) hrow
      unfold attachStep
      simp [World.set, hatt, Attachment.channel, Attachment.claimId, hclaimed]
    have henrich : attachStep att { w.set i (.attaching .claimed row kind) with
        table := w.table.claim row m.channel (some m.source) } (.enrich i) =
        some ⟨t₂, (w.set i (.attaching .enriched row kind)).session, (i, row.id) :: w.written,
          Function.update w.link i (some row.id)⟩ := by
      have hloaded : held row m.channel (some m.source) = claimedRow row m := rfl
      unfold attachStep
      simp [World.set, hatt, Attachment.channel, Attachment.claimId, hloaded, hstored, hflushed,
        hsecond]
    refine ⟨⟨t₂, (w.set i (.attaching .enriched row kind)).session, (i, row.id) :: w.written,
      Function.update w.link i (some row.id)⟩, ?_, hsecondRows, Function.update_self ..⟩
    unfold attaching
    simp only [System.exec, hread, hclaim, henrich, Option.bind_some]

/-! ### Two messages at one row -/

/-- A row an email opened; the balance is what its message states. -/
def emailTable (balance : Option Rat) : TxnTable :=
  ⟨[stored { payment with balance } 1 .email 21], List.pairwise_singleton _ _,
    List.pairwise_singleton _ _⟩

def twoAttach (a b : Attachment) (i : Nat) : Attachment := if i = 0 then a else b

/-- Both read before either claims. -/
def sideBySide : List Event :=
  [.read 0, .read 1, .claim 0, .claim 1]

omit [UnicodeTables] in
theorem slot_claims_exclusive_twoSms :
    ∃ w, w.session 1 = .attaching .conflicted (stored payment 1 .email 21) .standard ∧
      GoesToOne (twoAttach (.live ⟨.sms, 31, payment⟩) (.live ⟨.sms, 32, payment⟩)) w 1 .sms := by
  let att := twoAttach (.live ⟨.sms, 31, payment⟩) (.live ⟨.sms, 32, payment⟩)
  have hmeets : (@attaching asciiTables att).Meets System.always (.start (emailTable none))
      sideBySide := System.meets_of_forall (p := fun _ => True) sideBySide _ fun _ _ => trivial
  obtain ⟨w, -, hrun, hview⟩ := System.run_of_view (f := fun w => w.session 1)
    (x := .attaching .conflicted (stored payment 1 .email 21) .standard) hmeets (by decide +kernel)
  have hgoes := (@slot_claims_exclusive asciiTables w _ att _ (.refl _) hrun).2
  have hsaw : SawOpen (att 1) (w.session 1) .conflicted 1 .sms := by
    rw [hview]
    exact sawOpen_iff.mpr ⟨rfl, rfl, rfl, rfl, Option.some_ne_none _⟩
  exact ⟨w, hview, hgoes 1 .conflicted 1 .sms hsaw nofun⟩

omit [UnicodeTables] in
/-- **Two explicit SMS merges both get the row**: each saw the SMS slot open, neither
claims it, and both are linked. -/
theorem two_sms_resolved_into_one_row : ¬ ∀ (att : Nat → Attachment) (t : TxnTable) (w : World),
    (@attaching asciiTables att).Run System.always (.start t) w →
      ∀ i j row row' kind kind', w.session i = .attaching .enriched row kind →
        w.session j = .attaching .enriched row' kind' → row.id = row'.id →
        (att i).channel = (att j).channel → row.slot (att i).channel = none →
        row'.slot (att j).channel = none → (att i).source = (att j).source := by
  intro h
  let att := twoAttach (.resolveSms 31 payment 1) (.resolveSms 32 payment 1)
  let row := stored { payment with balance := some 1000 } 1 .email 21
  have hmeets : (@attaching asciiTables att).Meets System.always (.start (emailTable (some 1000)))
      (sideBySide ++ [.enrich 0, .enrich 1]) :=
    System.meets_of_forall (p := fun _ => True) _ _ fun _ _ => trivial
  obtain ⟨w, -, hrun, hview⟩ := System.run_of_view (f := fun w => (w.session 0, w.session 1))
    (x := (.attaching .enriched row .standard, .attaching .enriched row .standard)) hmeets
    (by decide +kernel)
  obtain ⟨hfirst, hsecond⟩ := Prod.mk.inj hview
  have hsource := h att _ w hrun 0 1 row row .standard .standard hfirst hsecond rfl rfl rfl rfl
  exact absurd hsource (by decide)

end FinancialDashboard.Transactions
