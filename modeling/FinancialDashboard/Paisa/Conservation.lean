import FinancialDashboard.Paisa.Projection

/-!
# The projection conserves transactions

Every transaction in scope is in one entry or in one skipped row.  The rows go through
`projectTransactions` in parts: those skipped for their currency, the self-transfers
without a reference, the groups of the others, and the rest.  Each part names the ids of
its rows, once each.

Two things are the projection's own.  A card payment stands for its bank leg alone, the
leg on the card's account being a skipped row.  And a row that is neither debit nor
credit gets lost in the group of a pair, `Bystander`.

* `accounts_projectTransactions`: the ids that the parts name.
* `project_conserves`: each is named once, and no other is.
-/

namespace FinancialDashboard.Paisa

open Posting PyText Transactions

/-- The transactions a record of the projection names. -/
def txnNaming : Naming Emission SkippedRow Nat := ⟨(·.entry.txnIds), (·.txnId)⟩

/-! ### Skipped rows -/

theorem accounts_skipped (why : SkipReason) (rows : List BookedTransaction) :
    Accounts txnNaming ⟨[], rows.map (skip why)⟩ (rows.map (·.id)) := by
  have hkeys : txnNaming.keys ⟨[], rows.map (skip why)⟩ = rows.map (·.id) := by
    simp [Naming.keys, txnNaming, skip, List.filterMap_map, Function.comp_def]
  rw [Accounts, hkeys]

variable [UnicodeTables]

theorem accounts_fxSkipped (config : PaisaProjectionConfig) (rows : List BookedTransaction) :
    Accounts txnNaming ⟨[], rows.filterMap fun t => (fxSkip config t).map fun why => skip why t⟩
      ((rows.filter (fxSkip config · ≠ none)).map (·.id)) := by
  induction rows with
  | nil => exact accounts_empty
  | cons t rest ih =>
    cases hskip : fxSkip config t with
    | none => simpa [hskip] using ih
    | some why =>
      have hone := (accounts_skipped why [t]).append ih
      simpa [hskip, Batch.append] using hone

/-! ### What the builders build -/

theorem selfTransferEntry_eq_some {accounts : List LedgerAccount}
    {debit credit : BookedTransaction} {commodity : String} {prices : List PriceDirective}
    {emission : Emission}
    (h : selfTransferEntry accounts debit credit commodity prices = some emission) :
    emission.entry.kind = .selfTransfer ∧ emission.entry.txnIds.Perm [debit.id, credit.id] := by
  unfold selfTransferEntry at h
  split at h
  next =>
    obtain rfl := Option.some.inj h
    exact ⟨rfl, List.perm_insertionSort _ _⟩
  next => cases h

section

variable {config : PaisaProjectionConfig} {t : BookedTransaction} {account : LedgerAccount}
  {commodity : String} {emission : Emission}

theorem cardPaymentEntry_eq_ok {resolution : CardResolution}
    (h : cardPaymentEntry config t account commodity resolution = .ok emission) :
    emission.entry.kind = .cardPayment ∧ emission.entry.txnIds = [t.id] := by
  unfold cardPaymentEntry at h
  obtain ⟨target, -, h⟩ := bind_eq_ok.mp h
  obtain rfl := Except.ok.inj h
  exact ⟨rfl, rfl⟩

theorem standardEntry_eq_ok [TitleTables]
    (h : standardEntry config t account commodity = .ok emission) :
    emission.entry.kind ∈ categoryKinds ∧ emission.entry.txnIds = [t.id] := by
  unfold standardEntry at h
  obtain ⟨contra, -, h⟩ := bind_eq_ok.mp h
  obtain rfl := Except.ok.inj h
  exact ⟨contra.ofCategory, rfl⟩

end

/-! ### The groups -/

section

variable {config : PaisaProjectionConfig} {accounts : List LedgerAccount}
  {group : String × List BookedTransaction} {emission : Emission}

/-- What a group that is a pair is. -/
structure IsPair (group : String × List BookedTransaction) (emission : Emission)
    (debit credit : BookedTransaction) : Prop where
  debits : group.2.filter (·.direction = "debit") = [debit]
  credits : group.2.filter (·.direction = "credit") = [credit]
  amount : debit.amount = credit.amount
  kind : emission.entry.kind = .selfTransfer
  txnIds : emission.entry.txnIds.Perm [debit.id, credit.id]

/-- The entry of a group is that of its one debit and its one credit. -/
theorem exists_selfTransferEntry (h : pairGroup config accounts group = .ok emission) :
    ∃ debit credit, group.2.filter (·.direction = "debit") = [debit] ∧
      group.2.filter (·.direction = "credit") = [credit] ∧ debit.amount = credit.amount ∧
      (decideFx config debit).currency = (decideFx config credit).currency ∧
      selfTransferEntry accounts debit credit (decideFx config debit).currency
        (group.2.flatMap (pricesOf config)) = some emission := by
  unfold pairGroup at h
  dsimp only at h
  split at h
  next debit credit hdebits hcredits =>
    split_ifs at h with hamount hcurrency
    split at h
    next => cases h
    next built hentry =>
      obtain rfl := Except.ok.inj h
      exact ⟨debit, credit, hdebits, hcredits, not_not.mp hamount, not_not.mp hcurrency, hentry⟩
  next => cases h

theorem pairGroup_eq_ok (h : pairGroup config accounts group = .ok emission) :
    ∃ debit credit, IsPair group emission debit credit := by
  obtain ⟨debit, credit, hdebits, hcredits, hamount, -, hentry⟩ := exists_selfTransferEntry h
  obtain ⟨hkind, hids⟩ := selfTransferEntry_eq_some hentry
  exact ⟨debit, credit, hdebits, hcredits, hamount, hkind, hids⟩

/-- The row is a debit or a credit. -/
def isLeg (t : BookedTransaction) : Bool := t.direction = "debit" || t.direction = "credit"

omit [UnicodeTables] in
theorem IsPair.legs {debit credit : BookedTransaction} (h : IsPair group emission debit credit) :
    (group.2.filter isLeg).Perm [debit, credit] := by
  have hsplit := List.filter_append_perm (·.direction = "debit") (group.2.filter isLeg)
  have hdebits : (group.2.filter isLeg).filter (·.direction = "debit") = [debit] := by
    rw [List.filter_filter, ← h.debits]
    refine List.filter_congr fun t _ => ?_
    by_cases ht : t.direction = "debit"
    · simp [isLeg, ht]
    · simp [ht]
  have hcredits : (group.2.filter isLeg).filter (fun t => !decide (t.direction = "debit")) =
      [credit] := by
    rw [List.filter_filter, ← h.credits]
    refine List.filter_congr fun t _ => ?_
    by_cases ht : t.direction = "debit"
    · simp [ht]
    · simp [isLeg, ht]
  rw [hdebits, hcredits] at hsplit
  exact hsplit.symm

/-- The rows of a group that its batch names. -/
def namedRows (config : PaisaProjectionConfig) (accounts : List LedgerAccount)
    (group : String × List BookedTransaction) : List BookedTransaction :=
  match pairGroup config accounts group with
  | .ok _ => group.2.filter isLeg
  | .error _ => group.2

theorem accounts_groupBatch (config : PaisaProjectionConfig) (accounts : List LedgerAccount)
    (group : String × List BookedTransaction) :
    Accounts txnNaming (groupBatch config accounts group)
      ((namedRows config accounts group).map (·.id)) := by
  unfold groupBatch namedRows
  cases hpair : pairGroup config accounts group with
  | error why => exact accounts_skipped why group.2
  | ok emission =>
    obtain ⟨debit, credit, h⟩ := pairGroup_eq_ok hpair
    have hkeys : txnNaming.keys ⟨[emission], []⟩ = emission.entry.txnIds := by
      simp [Naming.keys, txnNaming]
    rw [Accounts, hkeys]
    have hlegs : ((group.2.filter isLeg).map (·.id)).Perm [debit.id, credit.id] := h.legs.map (·.id)
    exact h.txnIds.trans hlegs.symm

theorem namedRows_sublist (config : PaisaProjectionConfig) (accounts : List LedgerAccount)
    (group : String × List BookedTransaction) :
    (namedRows config accounts group).Sublist group.2 := by
  unfold namedRows
  split
  next => exact List.filter_sublist
  next => exact List.Sublist.refl _

end

/-! ### The rest -/

section

variable [TitleTables] {config : PaisaProjectionConfig} {accounts : List LedgerAccount}
  {cards : List Card} {t : BookedTransaction} {account : LedgerAccount}
  {batch : Batch Emission SkippedRow}

/-- The row is an entry of its own. -/
structure IsOwnEntry (t : BookedTransaction) (emission : Emission)
    (batch : Batch Emission SkippedRow) : Prop where
  batch_eq : batch = ⟨[emission], []⟩
  txnIds : emission.entry.txnIds = [t.id]

/-- What becomes of a row that is in no group. -/
theorem projectRow_eq_ok (h : projectRow config accounts cards t = .ok batch) :
    (∃ why, batch = ⟨[], [skip why t]⟩) ∨
      (∃ account emission, accountOf accounts t = some account ∧ account.kind = .asset ∧
        category t = creditCardPaymentSlug ∧ emission.entry.kind = .cardPayment ∧
          IsOwnEntry t emission batch) ∨
      ∃ emission, emission.entry.kind ∈ categoryKinds ∧ IsOwnEntry t emission batch := by
  unfold projectRow at h
  by_cases hself : isSelfTransfer t = true
  · rw [if_pos hself] at h
    exact .inl ⟨_, (Except.ok.inj h).symm⟩
  rw [if_neg hself] at h
  cases haccount : accountOf accounts t with
  | none =>
    rw [haccount] at h
    exact .inl ⟨_, (Except.ok.inj h).symm⟩
  | some account =>
    rw [haccount] at h
    dsimp only at h
    split_ifs at h with hcategory hliability
    · exact .inl ⟨_, (Except.ok.inj h).symm⟩
    · obtain ⟨emission, hentry, h⟩ := bind_eq_ok.mp h
      obtain rfl := Except.ok.inj h
      obtain ⟨hkind, hids⟩ := cardPaymentEntry_eq_ok hentry
      have hasset : account.kind = .asset := by
        cases hk : account.kind with
        | asset => rfl
        | liability => exact absurd hk hliability
      exact .inr (.inl ⟨account, emission, rfl, hasset, hcategory, hkind, rfl, hids⟩)
    · obtain ⟨emission, hentry, h⟩ := bind_eq_ok.mp h
      obtain rfl := Except.ok.inj h
      obtain ⟨hkind, hids⟩ := standardEntry_eq_ok hentry
      exact .inr (.inr ⟨emission, hkind, rfl, hids⟩)

omit [UnicodeTables] [TitleTables] in
theorem IsOwnEntry.names {emission : Emission} (h : IsOwnEntry t emission batch) :
    Accounts txnNaming batch [t.id] := by
  have hkeys : txnNaming.keys ⟨[emission], []⟩ = emission.entry.txnIds := by
    simp [Naming.keys, txnNaming]
  rw [h.batch_eq, Accounts, hkeys, h.txnIds]

theorem accounts_projectRow (h : projectRow config accounts cards t = .ok batch) :
    Accounts txnNaming batch [t.id] := by
  rcases projectRow_eq_ok h with ⟨why, rfl⟩ | ⟨_, _, -, -, -, -, hown⟩ | ⟨_, -, hown⟩
  · exact accounts_skipped why [t]
  · exact hown.names
  · exact hown.names

/-- The leg of a card payment on the card's account is skipped. -/
theorem projectRow_cardSide (haccount : accountOf accounts t = some account)
    (hkind : account.kind = .liability) (hcategory : category t = creditCardPaymentSlug) :
    projectRow config accounts cards t = .ok ⟨[], [skip .cardSidePayment t]⟩ := by
  have hself : isSelfTransfer t = false := by
    rw [isSelfTransfer, hcategory]
    decide
  simp [projectRow, hself, haccount, hcategory, hkind]

end

/-! ### All parts -/

section

variable [TitleTables] {config : PaisaProjectionConfig} {accounts : List LedgerAccount}
  {cards : List Card} {txns : List BookedTransaction} {t : BookedTransaction}
  {batch : Batch Emission SkippedRow}

/-- The rows that are not skipped for their currency. -/
def eligibleRows (config : PaisaProjectionConfig) (txns : List BookedTransaction) :
    List BookedTransaction := txns.filter (fxSkip config · = none)

/-- The rows part by part; of a group, those that `rowsOf` picks. -/
def partRows (config : PaisaProjectionConfig) (txns : List BookedTransaction)
    (rowsOf : String × List BookedTransaction → List BookedTransaction) : List BookedTransaction :=
  let eligible := eligibleRows config txns
  txns.filter (fxSkip config · ≠ none) ++ (selfTransferLeftovers eligible ++
    ((selfTransferGroups eligible).flatMap rowsOf ++ eligible.filter (!isSelfTransfer ·)))

omit [TitleTables] in
/-- The self-transfers with a reference are the rows of the groups. -/
theorem selfTransferGroups_perm (rows : List BookedTransaction) :
    ((selfTransferGroups rows).flatMap (·.2)).Perm
      (rows.filter fun t => isSelfTransfer t && reference t ≠ "") := by
  unfold selfTransferGroups
  refine Dict.groups_perm ?_ fun t ht => ?_
  · exact (List.perm_insertionSort _ _).nodup_iff.mpr (List.nodup_dedup _)
  · exact (List.mem_insertionSort _).mpr (List.mem_dedup.mpr (List.mem_map_of_mem ht))

omit [TitleTables] in
/-- **The parts are the rows.** -/
theorem partRows_perm (config : PaisaProjectionConfig) (txns : List BookedTransaction) :
    (partRows config txns (·.2)).Perm txns := by
  have hself : (selfTransferLeftovers (eligibleRows config txns) ++
      (selfTransferGroups (eligibleRows config txns)).flatMap (·.2)).Perm
        ((eligibleRows config txns).filter (isSelfTransfer ·)) := by
    refine ((selfTransferGroups_perm _).append_left _).trans ?_
    have hsplit := List.filter_append_perm (fun t => decide (reference t = ""))
      ((eligibleRows config txns).filter (isSelfTransfer ·))
    simpa [List.filter_filter, selfTransferLeftovers, Bool.and_comm] using hsplit
  have heligible : (selfTransferLeftovers (eligibleRows config txns) ++
      ((selfTransferGroups (eligibleRows config txns)).flatMap (·.2) ++
        (eligibleRows config txns).filter (!isSelfTransfer ·))).Perm (eligibleRows config txns) := by
    rw [← List.append_assoc]
    exact (hself.append_right _).trans (List.filter_append_perm _ _)
  have hall := List.filter_append_perm (fun t => decide (fxSkip config t ≠ none)) txns
  refine (heligible.append_left _).trans ?_
  simpa [eligibleRows] using hall

omit [TitleTables] in
theorem isSelfTransfer_of_leftover {rows : List BookedTransaction}
    (h : t ∈ selfTransferLeftovers rows) : t ∈ rows ∧ isSelfTransfer t = true := by
  obtain ⟨ht, hself⟩ := List.mem_filter.mp h
  exact ⟨ht, ((Bool.and_eq_true _ _).mp hself).1⟩

omit [TitleTables] in
/-- The ids that are seen are those of the self-transfers. -/
theorem mem_seen_iff {rows : List BookedTransaction} (hids : (rows.map (·.id)).Nodup)
    (ht : t ∈ rows) :
    t.id ∈ (selfTransferLeftovers rows).map (·.id) ++
      (selfTransferGroups rows).flatMap (fun group => group.2.map (·.id)) ↔
        isSelfTransfer t = true := by
  have hgroups : (selfTransferGroups rows).flatMap (fun group => group.2.map (·.id)) =
      ((selfTransferGroups rows).flatMap (·.2)).map (·.id) := by
    rw [List.map_flatMap]
  rw [hgroups, ← List.map_append]
  constructor
  · intro h
    obtain ⟨u, hu, hid⟩ := List.mem_map.mp h
    have hself : u ∈ rows ∧ isSelfTransfer u = true := by
      rcases List.mem_append.mp hu with hu | hu
      · exact isSelfTransfer_of_leftover hu
      · obtain ⟨hu, hself⟩ := List.mem_filter.mp ((selfTransferGroups_perm rows).mem_iff.mp hu)
        exact ⟨hu, ((Bool.and_eq_true _ _).mp hself).1⟩
    obtain rfl := List.inj_on_of_nodup_map hids hself.1 ht hid
    exact hself.2
  · intro hself
    refine List.mem_map_of_mem (List.mem_append.mpr ?_)
    by_cases hreference : reference t = ""
    · exact .inl (List.mem_filter.mpr ⟨ht, by simp [hself, hreference]⟩)
    · refine .inr ((selfTransferGroups_perm rows).mem_iff.mpr (List.mem_filter.mpr ⟨ht, ?_⟩))
      simp [hself, hreference]

/-- What `projectTransactions` gives. -/
theorem projectTransactions_eq_ok (hids : (txns.map (·.id)).Nodup)
    (h : projectTransactions config accounts cards txns = .ok batch) :
    ∃ rest, ((eligibleRows config txns).filter (!isSelfTransfer ·)).mapM
        (projectRow config accounts cards) = .ok rest ∧
      batch = Batch.append
        ⟨[], txns.filterMap fun t => (fxSkip config t).map fun why => skip why t⟩
        (Batch.append ⟨[], (selfTransferLeftovers (eligibleRows config txns)).map
            (skip .noReference)⟩
          (Batch.append (Batch.flatten ((selfTransferGroups (eligibleRows config txns)).map
            (groupBatch config accounts))) (Batch.flatten rest))) := by
  unfold projectTransactions at h
  obtain ⟨rest, hrest, h⟩ := bind_eq_ok.mp h
  refine ⟨rest, ?_, (Except.ok.inj h).symm⟩
  rw [← hrest]
  refine congrArg (List.mapM _) (List.filter_congr fun t ht => ?_)
  have hseen := mem_seen_iff (hids.sublist (List.filter_sublist.map _)) ht
  cases hself : isSelfTransfer t with
  | false => simpa [hself, eligibleRows] using hseen
  | true => simpa [hself, eligibleRows] using hseen

/-- **Each part names its rows**, of a pair the two legs. -/
theorem accounts_projectTransactions (hids : (txns.map (·.id)).Nodup)
    (h : projectTransactions config accounts cards txns = .ok batch) :
    Accounts txnNaming batch ((partRows config txns (namedRows config accounts)).map (·.id)) := by
  obtain ⟨rest, hrest, rfl⟩ := projectTransactions_eq_ok hids h
  have hgroups : Accounts txnNaming
      (Batch.flatten ((selfTransferGroups (eligibleRows config txns)).map
        (groupBatch config accounts)))
      (((selfTransferGroups (eligibleRows config txns)).flatMap (namedRows config accounts)).map
        (·.id)) := by
    rw [List.map_flatMap]
    refine accounts_flatten (List.forall₂_map_right_iff.mpr (List.forall₂_same.mpr ?_))
    exact fun group _ => accounts_groupBatch config accounts group
  have hpass : Accounts txnNaming (Batch.flatten rest)
      (((eligibleRows config txns).filter (!isSelfTransfer ·)).map (·.id)) := by
    rw [List.map_eq_flatMap]
    exact accounts_flatten ((forall₂_of_mapM hrest).imp fun t b hb => accounts_projectRow hb)
  unfold partRows
  simp only [List.map_append]
  exact (accounts_fxSkipped config txns).append
    ((accounts_skipped .noReference _).append (hgroups.append hpass))

omit [TitleTables] in
theorem partRows_sublist (config : PaisaProjectionConfig) (accounts : List LedgerAccount)
    (txns : List BookedTransaction) :
    (partRows config txns (namedRows config accounts)).Sublist (partRows config txns (·.2)) := by
  refine (List.Sublist.refl _).append ((List.Sublist.refl _).append (List.Sublist.append ?_
    (List.Sublist.refl _)))
  exact List.Sublist.flatMap_right _ fun group _ => namedRows_sublist config accounts group

omit [TitleTables] in
theorem nodup_partRows (config : PaisaProjectionConfig) (accounts : List LedgerAccount)
    (hids : (txns.map (·.id)).Nodup) :
    ((partRows config txns (namedRows config accounts)).map (·.id)).Nodup :=
  (((partRows_perm config txns).map _).nodup_iff.mpr hids).sublist
    ((partRows_sublist config accounts txns).map _)

omit [TitleTables] in
theorem mem_of_partRows (ht : t ∈ partRows config txns (namedRows config accounts)) : t ∈ txns :=
  (partRows_perm config txns).mem_iff.mp ((partRows_sublist config accounts txns).subset ht)

omit [TitleTables] in
/-- A row that no part names is in the group of a pair without being a leg. -/
theorem mem_partRows_or (accounts : List LedgerAccount) (ht : t ∈ txns) :
    t ∈ partRows config txns (namedRows config accounts) ∨
      ∃ group ∈ selfTransferGroups (eligibleRows config txns), ∃ emission,
        pairGroup config accounts group = .ok emission ∧ t ∈ group.2 ∧ isLeg t = false := by
  by_contra hnot
  obtain ⟨hnamed, hlost⟩ := not_or.mp hnot
  refine hnamed ?_
  rcases List.mem_append.mp ((partRows_perm config txns).mem_iff.mpr ht) with ht | ht
  · exact List.mem_append_left _ ht
  refine List.mem_append_right _ ?_
  rcases List.mem_append.mp ht with ht | ht
  · exact List.mem_append_left _ ht
  refine List.mem_append_right _ ?_
  rcases List.mem_append.mp ht with ht | ht
  · refine List.mem_append_left _ ?_
    obtain ⟨group, hg, ht⟩ := List.mem_flatMap.mp ht
    refine List.mem_flatMap.mpr ⟨group, hg, ?_⟩
    unfold namedRows
    cases hpair : pairGroup config accounts group with
    | error why => exact ht
    | ok emission =>
      refine List.mem_filter.mpr ⟨ht, ?_⟩
      by_contra hleg
      exact hlost ⟨group, hg, emission, hpair, ht, by simpa using hleg⟩
  · exact List.mem_append_right _ ht

/-! ### What is posted -/

omit [TitleTables] in
theorem mem_selfTransferGroups {rows : List BookedTransaction}
    {group : String × List BookedTransaction} (hg : group ∈ selfTransferGroups rows)
    (ht : t ∈ group.2) : t ∈ rows ∧ isSelfTransfer t = true ∧ reference t = group.1 := by
  obtain ⟨ht, hreference⟩ := Dict.mem_groups hg ht
  obtain ⟨ht, hself⟩ := List.mem_filter.mp ht
  exact ⟨ht, ((Bool.and_eq_true _ _).mp hself).1, hreference⟩

/-- A posted entry is that of a pair or of a row that is in no group. -/
theorem posted_origin (hids : (txns.map (·.id)).Nodup)
    (h : projectTransactions config accounts cards txns = .ok batch) {emission : Emission}
    (he : emission ∈ batch.posted) :
    (∃ group ∈ selfTransferGroups (eligibleRows config txns),
        pairGroup config accounts group = .ok emission) ∨
      ∃ t ∈ eligibleRows config txns, ∃ b, projectRow config accounts cards t = .ok b ∧
        emission ∈ b.posted := by
  obtain ⟨rest, hrest, rfl⟩ := projectTransactions_eq_ok hids h
  rcases List.mem_append.mp he with he | he
  · cases he
  rcases List.mem_append.mp he with he | he
  · cases he
  rcases List.mem_append.mp he with he | he
  · obtain ⟨b, hb, he⟩ := mem_posted_flatten.mp he
    obtain ⟨group, hg, rfl⟩ := List.mem_map.mp hb
    refine .inl ⟨group, hg, ?_⟩
    unfold groupBatch at he
    cases hpair : pairGroup config accounts group with
    | error why =>
      rw [hpair] at he
      cases he
    | ok other =>
      rw [hpair] at he
      rw [List.mem_singleton.mp he]
  · obtain ⟨b, hb, he⟩ := mem_posted_flatten.mp he
    obtain ⟨t, ht, hrow⟩ := exists_left (forall₂_of_mapM hrest) hb
    exact .inr ⟨t, List.mem_of_mem_filter ht, b, hrow, he⟩

/-- A posted entry is a pair's, a card payment's bank leg, or a category's. -/
theorem posted_cases (hids : (txns.map (·.id)).Nodup)
    (h : projectTransactions config accounts cards txns = .ok batch) {emission : Emission}
    (he : emission ∈ batch.posted) :
    (∃ group ∈ selfTransferGroups (eligibleRows config txns),
        pairGroup config accounts group = .ok emission) ∨
      (∃ t ∈ eligibleRows config txns, ∃ account, accountOf accounts t = some account ∧
        account.kind = .asset ∧ category t = creditCardPaymentSlug ∧
          emission.entry.kind = .cardPayment ∧ emission.entry.txnIds = [t.id]) ∨
      emission.entry.kind ∈ categoryKinds := by
  rcases posted_origin hids h he with hpair | ⟨t, ht, b, hrow, he⟩
  · exact .inl hpair
  · rcases projectRow_eq_ok hrow with ⟨why, rfl⟩ | ⟨account, other, ha, hk, hc, hp, hown⟩ |
      ⟨other, hk, hown⟩
    · cases he
    · rw [hown.batch_eq] at he
      obtain rfl := List.mem_singleton.mp he
      exact .inr (.inl ⟨t, ht, account, ha, hk, hc, hp, hown.txnIds⟩)
    · rw [hown.batch_eq] at he
      obtain rfl := List.mem_singleton.mp he
      exact .inr (.inr hk)

theorem posted_of_pair (hids : (txns.map (·.id)).Nodup)
    (h : projectTransactions config accounts cards txns = .ok batch) {emission : Emission}
    {group : String × List BookedTransaction}
    (hg : group ∈ selfTransferGroups (eligibleRows config txns))
    (hpair : pairGroup config accounts group = .ok emission) : emission ∈ batch.posted := by
  obtain ⟨rest, -, rfl⟩ := projectTransactions_eq_ok hids h
  refine List.mem_append_right _ (List.mem_append_right _ (List.mem_append_left _ ?_))
  refine mem_posted_flatten.mpr ⟨_, List.mem_map_of_mem hg, ?_⟩
  unfold groupBatch
  rw [hpair]
  exact List.mem_singleton.mpr rfl

/-- The card's own leg of a card payment is a skipped row. -/
theorem skipped_of_cardSide (hids : (txns.map (·.id)).Nodup)
    (h : projectTransactions config accounts cards txns = .ok batch) {account : LedgerAccount}
    (ht : t ∈ eligibleRows config txns) (haccount : accountOf accounts t = some account)
    (hkind : account.kind = .liability) (hcategory : category t = creditCardPaymentSlug) :
    skip .cardSidePayment t ∈ batch.skipped := by
  obtain ⟨rest, hrest, rfl⟩ := projectTransactions_eq_ok hids h
  have hself : isSelfTransfer t = false := by
    rw [isSelfTransfer, hcategory]
    decide
  have hmem : t ∈ (eligibleRows config txns).filter (!isSelfTransfer ·) :=
    List.mem_filter.mpr ⟨ht, by simp [hself]⟩
  obtain ⟨b, hb, hrow⟩ := exists_right (forall₂_of_mapM hrest) hmem
  rw [projectRow_cardSide haccount hkind hcategory] at hrow
  obtain rfl := Except.ok.inj hrow
  refine List.mem_append_right _ (List.mem_append_right _ (List.mem_append_right _ ?_))
  exact mem_skipped_flatten.mpr ⟨_, hb, List.mem_singleton.mpr rfl⟩

end

/-! ### The report -/

/-- How many of the report's records name a transaction. -/
def timesNamed (report : Projection) (id : Nat) : Nat :=
  report.entries.countP (id ∈ ·.txnIds) + report.skipped.countP (·.txnId = some id)

/-- A self-transfer that is neither debit nor credit, with the reference of an entry's
pair: it is no leg of the pair, and its group is done with. -/
def Bystander (config : PaisaProjectionConfig) (books : Books) (cutover : Int)
    (report : Projection) (t : BookedTransaction) : Prop :=
  isSelfTransfer t = true ∧ fxSkip config t = none ∧ isLeg t = false ∧
    ∃ e ∈ report.entries, e.kind = .selfTransfer ∧
      ∃ u ∈ transactionsInScope config books cutover, u.id ∈ e.txnIds ∧ reference u = reference t

/-- The transaction is on an account of a kind. -/
def OnAccount (books : Books) (kind : AccountKind) (t : BookedTransaction) : Prop :=
  ∃ account ∈ books.accounts, t.accountId = some account.id ∧ account.id ≠ 0 ∧
    accountKind account.type = kind

/-- The debit and the credit of a self-transfer. -/
structure IsTransfer (debit credit : BookedTransaction) : Prop where
  isDebit : debit.direction = "debit" ∧ isSelfTransfer debit = true
  isCredit : credit.direction = "credit" ∧ isSelfTransfer credit = true
  sameReference : reference debit = reference credit
  sameAmount : debit.amount = credit.amount

/-- The report names every transaction in scope once, a pair by its two legs and a card
payment by its bank leg, and names no others. -/
structure Conserves (config : PaisaProjectionConfig) (books : Books) (cutover : Int)
    (report : Projection) : Prop where
  once : ∀ t ∈ transactionsInScope config books cutover,
    ¬ Bystander config books cutover report t → timesNamed report t.id = 1
  inScope : ∀ id, timesNamed report id ≠ 0 →
    ∃ t ∈ transactionsInScope config books cutover, t.id = id
  pairs : ∀ e ∈ report.entries, e.kind = .selfTransfer →
    ∃ debit ∈ transactionsInScope config books cutover,
      ∃ credit ∈ transactionsInScope config books cutover,
        IsTransfer debit credit ∧ e.txnIds.Perm [debit.id, credit.id]
  payments : ∀ e ∈ report.entries, e.kind = .cardPayment →
    ∃ t ∈ transactionsInScope config books cutover,
      category t = creditCardPaymentSlug ∧ OnAccount books .asset t ∧ e.txnIds = [t.id]
  cardSides : ∀ t ∈ transactionsInScope config books cutover, fxSkip config t = none →
    category t = creditCardPaymentSlug → OnAccount books .liability t →
      skip .cardSidePayment t ∈ report.skipped

section

variable {config : PaisaProjectionConfig} {books : Books} {cutover : Int} {report : Projection}
  {t : BookedTransaction} {id : Nat}

omit [UnicodeTables] in
theorem mem_transactionsInScope : t ∈ transactionsInScope config books cutover ↔
    t ∈ books.transactions.rows ∧ config.inScope cutover t = true := by
  rw [transactionsInScope, List.mem_insertionSort, List.mem_filter]

omit [UnicodeTables] in
theorem nodup_transactionsInScope (config : PaisaProjectionConfig) (books : Books) (cutover : Int) :
    ((transactionsInScope config books cutover).map (·.id)).Nodup :=
  ((List.perm_insertionSort _ _).map _).nodup_iff.mpr
    (books.transactions.nodup_ids.sublist (List.filter_sublist.map _))

variable [TitleTables]

theorem resolveAccount_eq_ok {account : Account} {mappings : Mappings} {backend : Backend}
    {ledger : LedgerAccount} (h : resolveAccount account mappings backend = .ok ledger) :
    ledger.accountId = account.id ∧ ledger.kind = accountKind account.type := by
  unfold resolveAccount at h
  obtain ⟨name, -, h⟩ := bind_eq_ok.mp h
  obtain rfl := Except.ok.inj h
  exact ⟨rfl, rfl⟩

/-- The parts a report is put together from. -/
structure MadeOf (config : PaisaProjectionConfig) (books : Books) (cutover : Int)
    (report : Projection) (accounts : List LedgerAccount) (batch : Batch Emission SkippedRow)
    (portfolios : List ProjectedEntry) : Prop where
  resolved : List.Forall₂ (fun account ledger =>
    resolveAccount account config.accountMappings config.ledgerCli = .ok ledger)
      (selectedAccounts config books) accounts
  projected : projectTransactions config accounts books.cards
    (transactionsInScope config books cutover) = .ok batch
  ofPortfolios : ∀ e ∈ portfolios, IsPortfolioEntry e
  entries : report.entries.Perm (batch.posted.map (·.entry) ++ portfolios)
  skipped : report.skipped = unknownAccounts config books ++ batch.skipped

/-- The parts with the day, the entries of the portfolios and the prices. -/
structure PartsOf (config : PaisaProjectionConfig) (books : Books) (report : Projection)
    (accounts : List LedgerAccount) (batch : Batch Emission SkippedRow)
    (portfolios : List ProjectedEntry) : Prop
    extends MadeOf config books report.cutover report accounts batch portfolios where
  cutover : config.cutoverDate = some report.cutover
  valued : casEntries (valuationConfig config books report.cutover) books.networth = .ok portfolios
  openings : report.openings = (accounts.insertionSort (·.accountId ≤ ·.accountId)).filterMap
    (openingForAccount books · report.cutover)
  prices : report.priceDirectives = dedupePrices (batch.posted.flatMap (·.prices))

theorem exists_partsOf (h : project config books = .ok report) : ∃ accounts batch portfolios,
    PartsOf config books report accounts batch portfolios := by
  unfold project at h
  cases hcutover : config.cutoverDate with
  | none =>
    rw [hcutover] at h
    cases h
  | some cutover =>
    rw [hcutover] at h
    cases hfrom : projectFrom config books cutover with
    | error e =>
      simp only [hfrom] at h
      cases h
    | ok made =>
      simp only [hfrom] at h
      obtain rfl := Except.ok.inj h
      unfold projectFrom at hfrom
      obtain ⟨accounts, haccounts, hfrom⟩ := bind_eq_ok.mp hfrom
      obtain ⟨batch, hbatch, hfrom⟩ := bind_eq_ok.mp hfrom
      obtain ⟨entries, hentries, hfrom⟩ := bind_eq_ok.mp hfrom
      obtain rfl := Except.ok.inj hfrom
      obtain ⟨portfolios, hportfolios, hperm⟩ := projectedEntries_eq_ok hentries
      exact ⟨accounts, batch, portfolios, {
        resolved := forall₂_of_mapM haccounts
        projected := hbatch
        ofPortfolios := isPortfolioEntry_of_casEntries hportfolios
        entries := hperm.trans ((List.perm_insertionSort _ _).append_right _)
        skipped := rfl
        cutover := hcutover
        valued := hportfolios
        openings := rfl
        prices := rfl }⟩

theorem project_eq_ok (h : project config books = .ok report) :
    ∃ cutover, config.cutoverDate = some cutover ∧ ∃ accounts batch portfolios,
      MadeOf config books cutover report accounts batch portfolios := by
  obtain ⟨accounts, batch, portfolios, hparts⟩ := exists_partsOf h
  exact ⟨_, hparts.cutover, accounts, batch, portfolios, hparts.toMadeOf⟩

variable {accounts : List LedgerAccount} {batch : Batch Emission SkippedRow}
  {portfolios : List ProjectedEntry}

/-- Neither an unknown account nor a portfolio names a transaction. -/
theorem MadeOf.timesNamed_eq (h : MadeOf config books cutover report accounts batch portfolios) :
    timesNamed report id = txnNaming.count batch id := by
  have hportfolios : portfolios.countP (id ∈ ·.txnIds) = 0 := by
    rw [List.countP_eq_zero]
    intro e he
    simp [(h.ofPortfolios e he).txnIds]
  have hunknown : (unknownAccounts config books).countP (·.txnId = some id) = 0 := by
    rw [List.countP_eq_zero]
    intro row hrow
    obtain ⟨account, -, rfl⟩ := List.mem_map.mp hrow
    simp
  rw [timesNamed, h.entries.countP_eq, h.skipped, List.countP_append, List.countP_append,
    hportfolios, hunknown, List.countP_map, Nat.add_zero, Nat.zero_add]
  rfl

theorem MadeOf.posted (h : MadeOf config books cutover report accounts batch portfolios)
    {e : ProjectedEntry} (he : e ∈ report.entries) (hkind : e.kind ≠ .valuation) :
    ∃ emission ∈ batch.posted, emission.entry = e := by
  rcases List.mem_append.mp (h.entries.mem_iff.mp he) with he | he
  · exact List.mem_map.mp he
  · exact absurd (h.ofPortfolios e he).kind hkind

theorem MadeOf.onAccount (h : MadeOf config books cutover report accounts batch portfolios)
    {ledger : LedgerAccount} (hl : accountOf accounts t = some ledger) :
    OnAccount books ledger.kind t := by
  unfold accountOf at hl
  split at hl
  next => cases hl
  next => cases hl
  next id hne ht =>
    obtain ⟨account, hm, hr⟩ := exists_left h.resolved (List.mem_of_find?_eq_some hl)
    obtain ⟨hid, hkind⟩ := resolveAccount_eq_ok hr
    have hledger : ledger.accountId = id := by simpa using List.find?_some hl
    refine ⟨account, List.mem_of_mem_filter hm, ?_, ?_, hkind.symm⟩
    · rw [ht, ← hid, hledger]
    · intro hzero
      exact hne (by rw [← hledger, hid, hzero])

theorem MadeOf.accountOf_eq (h : MadeOf config books cutover report accounts batch portfolios)
    {kind : AccountKind} (ht : config.inScope cutover t = true) (ha : OnAccount books kind t) :
    ∃ ledger, accountOf accounts t = some ledger ∧ ledger.kind = kind := by
  obtain ⟨account, hm, hid, hzero, hkind⟩ := ha
  have hselected : account ∈ selectedAccounts config books := by
    refine List.mem_filter.mpr ⟨hm, ?_⟩
    have hscope := ((Bool.and_eq_true _ _).mp ht).1
    simpa [hid] using hscope
  obtain ⟨ledger, hl, hr⟩ := exists_right h.resolved hselected
  have hsome : (accounts.find? (·.accountId = account.id)).isSome = true :=
    List.find?_isSome.mpr ⟨ledger, hl, by simpa using (resolveAccount_eq_ok hr).1⟩
  obtain ⟨found, hfound⟩ := Option.isSome_iff_exists.mp hsome
  have haccount : accountOf accounts t = some found := by
    unfold accountOf
    rw [hid]
    split
    next heq => cases heq
    next heq => exact absurd (Option.some.inj heq) hzero
    next id _ heq =>
      obtain rfl := Option.some.inj heq
      exact hfound
  obtain ⟨other, ho, hid', -, hk⟩ := h.onAccount haccount
  have hsame : other = account := by
    refine List.inj_on_of_nodup_map books.nodup_accounts ho hm ?_
    exact Option.some.inj (hid'.symm.trans hid)
  exact ⟨found, haccount, by rw [← hk, hsame, hkind]⟩

/-- A pair's entry is that of a debit and a credit in scope. -/
theorem MadeOf.pair (h : MadeOf config books cutover report accounts batch portfolios)
    {e : ProjectedEntry} (he : e ∈ report.entries) (hkind : e.kind = .selfTransfer) :
    ∃ debit ∈ transactionsInScope config books cutover,
      ∃ credit ∈ transactionsInScope config books cutover,
        IsTransfer debit credit ∧ e.txnIds.Perm [debit.id, credit.id] := by
  obtain ⟨emission, hm, rfl⟩ := h.posted he (by rw [hkind]; nofun)
  rcases posted_cases (nodup_transactionsInScope _ _ _) h.projected hm with ⟨group, hg, hpair⟩ |
    ⟨_, _, _, -, -, -, hk, -⟩ | hk
  · obtain ⟨debit, credit, hp⟩ := pairGroup_eq_ok hpair
    have hd := List.mem_filter.mp (hp.debits ▸ List.mem_singleton_self debit)
    have hc := List.mem_filter.mp (hp.credits ▸ List.mem_singleton_self credit)
    obtain ⟨hdm, hds, hdr⟩ := mem_selfTransferGroups hg hd.1
    obtain ⟨hcm, hcs, hcr⟩ := mem_selfTransferGroups hg hc.1
    refine ⟨debit, List.mem_of_mem_filter hdm, credit, List.mem_of_mem_filter hcm, ?_, hp.txnIds⟩
    exact ⟨⟨of_decide_eq_true hd.2, hds⟩, ⟨of_decide_eq_true hc.2, hcs⟩, hdr.trans hcr.symm,
      hp.amount⟩
  · rw [hkind] at hk
    cases hk
  · rw [hkind] at hk
    exact absurd hk (by decide)

theorem MadeOf.payment (h : MadeOf config books cutover report accounts batch portfolios)
    {e : ProjectedEntry} (he : e ∈ report.entries) (hkind : e.kind = .cardPayment) :
    ∃ t ∈ transactionsInScope config books cutover,
      category t = creditCardPaymentSlug ∧ OnAccount books .asset t ∧ e.txnIds = [t.id] := by
  obtain ⟨emission, hm, rfl⟩ := h.posted he (by rw [hkind]; nofun)
  rcases posted_cases (nodup_transactionsInScope _ _ _) h.projected hm with ⟨group, hg, hpair⟩ |
    ⟨t, ht, account, ha, hasset, hc, -, hids⟩ | hk
  · obtain ⟨_, _, hp⟩ := pairGroup_eq_ok hpair
    exact absurd (hp.kind.symm.trans hkind) nofun
  · exact ⟨t, List.mem_of_mem_filter ht, hc, hasset ▸ h.onAccount ha, hids⟩
  · rw [hkind] at hk
    exact absurd hk (by decide)

/-- A row that no part names is a bystander. -/
theorem MadeOf.bystander (h : MadeOf config books cutover report accounts batch portfolios)
    {group : String × List BookedTransaction} {emission : Emission}
    (hg : group ∈ selfTransferGroups (eligibleRows config (transactionsInScope config books cutover)))
    (hpair : pairGroup config accounts group = .ok emission) (ht : t ∈ group.2)
    (hleg : isLeg t = false) : Bystander config books cutover report t := by
  obtain ⟨debit, credit, hp⟩ := pairGroup_eq_ok hpair
  obtain ⟨hm, hself, hreference⟩ := mem_selfTransferGroups hg ht
  have hd := (List.mem_filter.mp (hp.debits ▸ List.mem_singleton_self debit)).1
  obtain ⟨hdm, -, hdr⟩ := mem_selfTransferGroups hg hd
  have hposted := posted_of_pair (nodup_transactionsInScope _ _ _) h.projected hg hpair
  have hentry : emission.entry ∈ report.entries :=
    h.entries.mem_iff.mpr (List.mem_append_left _ (List.mem_map_of_mem hposted))
  refine ⟨hself, of_decide_eq_true (List.mem_filter.mp hm).2, hleg, _, hentry, hp.kind, debit,
    List.mem_of_mem_filter hdm, ?_, hdr.trans hreference.symm⟩
  exact hp.txnIds.mem_iff.mpr List.mem_cons_self

end

/-- **The projection conserves transactions.** -/
theorem project_conserves [TitleTables] {config : PaisaProjectionConfig} {books : Books}
    {cutover : Int} {report : Projection} (hcutover : config.cutoverDate = some cutover)
    (h : project config books = .ok report) : Conserves config books cutover report := by
  obtain ⟨since, hsince, accounts, batch, portfolios, hmade⟩ := project_eq_ok h
  obtain rfl := Option.some.inj (hsince.symm.trans hcutover)
  have haccounts := accounts_projectTransactions (nodup_transactionsInScope _ _ _) hmade.projected
  have hnodup := nodup_partRows config accounts (nodup_transactionsInScope config books since)
  constructor
  · intro t ht hbystander
    rw [hmade.timesNamed_eq]
    refine haccounts.count_eq_one hnodup (List.mem_map_of_mem ?_)
    rcases mem_partRows_or accounts ht with hnamed | ⟨group, hg, emission, hpair, hm, hleg⟩
    · exact hnamed
    · exact absurd (hmade.bystander hg hpair hm hleg) hbystander
  · intro id hid
    rw [hmade.timesNamed_eq] at hid
    obtain ⟨t, ht, rfl⟩ := List.mem_map.mp (haccounts.mem_of_count hid)
    exact ⟨t, mem_of_partRows ht, rfl⟩
  · exact fun e he hkind => hmade.pair he hkind
  · exact fun e he hkind => hmade.payment he hkind
  · intro t ht hfx hcategory haccount
    obtain ⟨ledger, hl, hkind⟩ := hmade.accountOf_eq (mem_transactionsInScope.mp ht).2 haccount
    have heligible : t ∈ eligibleRows config (transactionsInScope config books since) :=
      List.mem_filter.mpr ⟨ht, decide_eq_true hfx⟩
    rw [hmade.skipped]
    exact List.mem_append_right _ (skipped_of_cardSide (nodup_transactionsInScope _ _ _) hmade.projected
      heligible hl hkind hcategory)

/-! ### A card bill and a transfer -/

def bankRow (id account : Nat) (direction category : String) (ref : Option String) :
    BookedTransaction where
  bank := "hdfc"
  emailType := "debit_alert"
  direction := direction
  amount := 500
  currency := none
  transactionDate := some 738000
  transactionTime := none
  counterparty := none
  cardMask := none
  accountMask := none
  referenceNumber := ref
  channel := none
  balance := none
  rawDescription := none
  transactionTimeIsReceivedTime := false
  identifiesBy := .counterparty
  id := id
  smsMessageId := none
  emailId := none
  source := none
  accountId := some account
  cardId := none
  note := none
  category := some category
  excludeFromCashflow := none

/-- A card bill with both its legs, a self-transfer, and a declined attempt at it. -/
def billAndTransfer : Books where
  accounts := [⟨1, "hdfc", "Salary", "bank_account", some true⟩,
    ⟨2, "hdfc", "Regalia", "credit_card", some true⟩,
    ⟨3, "axis", "Savings", "bank_account", some true⟩]
  nodup_accounts := by decide
  cards := []
  transactions := ⟨[bankRow 1 1 "debit" "credit_card_payment" none,
    bankRow 2 2 "credit" "credit_card_payment" none,
    bankRow 3 1 "debit" "self_transfer" (some "IMPS1"),
    bankRow 4 3 "credit" "self_transfer" (some "IMPS1"),
    bankRow 5 1 "declined" "self_transfer" (some "IMPS1")], by decide⟩
  networth := ⟨⟨[], by decide⟩, [], [], []⟩
  secret := none
  digest := fun _ _ => ""

def allAccounts : PaisaProjectionConfig where
  selectedAccountIds := [1, 2, 3]
  cutoverDate := some 737000
  accountMappings := ∅
  categoryMappings := ∅
  nonInrPolicy := .skip
  ledgerCli := .ledger
  fxRates := ∅
  projectInvestments := false

/-- What the report has of the transactions. -/
def recorded (report : Projection) : List (EntryKind × List Nat) × List SkippedRow :=
  (report.entries.map fun e => (e.kind, e.txnIds), report.skipped)

omit [UnicodeTables] in
/-- The card payment has one id, and the declined row is named nowhere. -/
theorem card_payment_of_one_leg :
    ∃ report, @project asciiTables asciiTitles allAccounts billAndTransfer = .ok report ∧
      recorded report =
        ([(.cardPayment, [1]), (.selfTransfer, [3, 4])], [⟨some 2, .cardSidePayment⟩]) ∧
      ¬ ∀ e ∈ report.entries, e.kind = .cardPayment → e.txnIds.length = 2 := by
  have hrun : (@project asciiTables asciiTitles allAccounts billAndTransfer).toOption.map recorded =
      some ([(.cardPayment, [1]), (.selfTransfer, [3, 4])], [⟨some 2, .cardSidePayment⟩]) := by
    decide +kernel
  cases h : @project asciiTables asciiTitles allAccounts billAndTransfer with
  | error e =>
    rw [h] at hrun
    cases hrun
  | ok report =>
    rw [h] at hrun
    have hrecorded := Option.some.inj hrun
    refine ⟨report, rfl, hrecorded, fun hall => ?_⟩
    have hentries : report.entries.map (fun e => (e.kind, e.txnIds)) =
        [(.cardPayment, [1]), (.selfTransfer, [3, 4])] := congrArg Prod.fst hrecorded
    have hmem : (EntryKind.cardPayment, [1]) ∈
        report.entries.map fun e => (e.kind, e.txnIds) := by simp [hentries]
    obtain ⟨e, he, heq⟩ := List.mem_map.mp hmem
    obtain ⟨hkind, hids⟩ := Prod.mk.inj heq
    have hlength := hall e he hkind
    rw [hids] at hlength
    cases hlength

omit [UnicodeTables] in
theorem project_conserves_billAndTransfer :
    ∃ report, @project asciiTables asciiTitles allAccounts billAndTransfer = .ok report ∧
      @Conserves asciiTables allAccounts billAndTransfer 737000 report := by
  have hok : (@project asciiTables asciiTitles allAccounts billAndTransfer).isOk = true := by
    decide +kernel
  cases h : @project asciiTables asciiTitles allAccounts billAndTransfer with
  | error e =>
    rw [h] at hok
    cases hok
  | ok report =>
    exact ⟨report, rfl, @project_conserves asciiTables asciiTitles allAccounts billAndTransfer
      737000 report rfl h⟩

end FinancialDashboard.Paisa
