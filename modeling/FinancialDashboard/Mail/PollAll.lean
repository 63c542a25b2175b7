import FinancialDashboard.Lib.FirstCome
import FinancialDashboard.Lib.Transition
import FinancialDashboard.Mail.Delivered
import FinancialDashboard.Mail.Ingest
import FinancialDashboard.Mail.Polling

/-!
# The poll

`poll_all` of `integrations/email/orchestrator.py`, from the enabled rules on: source by source
the provider fetches what is not stored, rule by rule the emails are handled that no rule had
before, and then the rules and the source are stamped.  A source of an unknown kind and an email
that is stored already end the poll; what was committed stays.

* `delivered`: what the sources deliver, told from the state the poll begins in.
* `poll_newcomers`: a poll handles each email once, under the first rule that has it.
* `handled_once`: over any run of polls no email is handled again once it has its row.
-/

namespace FinancialDashboard.Mail

open PyText Transactions

/-! ### Sources and rules -/

structure EmailSource where
  id : Nat
  provider : String
  active : Bool
  lastSyncedAt : Option Int
  lastError : Option String
  casLastPolledAt : Option Int
  deriving DecidableEq

def sourceSchema : Schema EmailSource where
  id := EmailSource.id
  Clashes _ _ := False
  decidable := fun _ _ => inferInstanceAs (Decidable False)

/-- `uq_fetch_rule_auto_managed`, in which a NULL is never equal. -/
def ruleSchema : Schema PolledRule where
  id rule := rule.id
  Clashes a b := a.autoManaged ∧ b.autoManaged ∧ a.sourceId ≠ none ∧ a.sourceId = b.sourceId ∧
    a.sender ≠ none ∧ a.sender = b.sender
  decidable := fun _ _ => inferInstanceAs (Decidable (_ ∧ _))

/-- What the poll reads and writes. -/
structure World (σ : Type) where
  rules : Table ruleSchema
  sources : Table sourceSchema
  store : Store σ

/-- What the servers of the sources say to a poll, and what the clock shows. -/
structure PollEnv where
  imap : Nat → ImapServer
  credentials : Nat → Bool
  jmap : Nat → JmapServer
  token : Nat → Bool
  address : String → String
  fetchLimit : Int
  fetchedAt : Nat → Int
  stampedAt : Nat → Int
  syncedAt : Nat → Int
  casPolledAt : Nat → Int

/-- The rules of one source, as the poll goes through them. -/
abbrev SourceRules := EmailSource × List PolledRule

/-- `sources_by_id.get(rule.source_id)`, unless the id is falsy. -/
def sourceOf (sources : Table sourceSchema) (rule : PolledRule) : Option EmailSource :=
  (rule.sourceId.filter (· ≠ 0)).bind fun id => sources.rows.find? fun s => s.active && s.id = id

/-- `rules_by_source`, from the enabled rules. -/
def rulesBySource (rules : Table ruleSchema) (sources : Table sourceSchema) :
    OrderedDict EmailSource (List PolledRule) :=
  .collect <| (rules.rows.filter (·.enabled)).filterMap fun rule =>
    (sourceOf sources rule).map (·, rule)

/-! ### One source -/

def existingRemoteIds (emails : Table emailSchema) (sourceId : Nat) : List String :=
  (emails.rows.filter (·.sourceId = sourceId)).map (·.remoteId)

/-- An email that a source delivers to a rule. -/
structure Delivery where
  source : EmailSource
  rule : PolledRule
  mail : FetchedEmail

/-- What was done with it. -/
structure Dispatch extends Delivery where
  /-- It stored a statement. -/
  statement : Bool
  handled : Handled

structure Stats where
  rules : Nat
  fetched : Nat
  parsed : Nat
  failed : Nat
  skipped : Nat
  deriving DecidableEq

def Stats.zero : Stats := ⟨0, 0, 0, 0, 0⟩

def Stats.count (stats : Stats) : Counter → Stats
  | .parsed => { stats with parsed := stats.parsed + 1 }
  | .failed => { stats with failed := stats.failed + 1 }
  | .skipped => { stats with skipped := stats.skipped + 1 }

structure PollState (σ : Type) where
  world : World σ
  insertedMsgIds : List String
  stats : Stats
  /-- What was handled so far. -/
  log : List Dispatch

/-- What `poll_all` does about the initial backfill of the rules of a source. -/
def stampRules (now : Int) (result : FetchSourceResult) (polled : List PolledRule)
    (rules : Table ruleSchema) : Table ruleSchema :=
  rules.update (fun rule => result.fetchOk && polled.any fun p =>
      p.id = rule.id && p.id ∈ result.backfillReadyRuleIds && p.needsBackfill)
    { set := fun rule => { rule with initialBackfillDoneAt := some now }
      id_set := fun _ => rfl
      left := fun _ _ => Iff.rfl
      right := fun _ _ => Iff.rfl }

def syncSource (env : PollEnv) (result : FetchSourceResult) (polled : List PolledRule)
    (sourceId : Nat) (sources : Table sourceSchema) : Table sourceSchema :=
  sources.update (·.id = sourceId)
    { set := fun source => { source with
        lastSyncedAt := if result.fetchOk then some (env.syncedAt sourceId)
          else source.lastSyncedAt
        lastError := if result.fetchOk then none
          else some s!"Fetch failed for {source.provider} source {sourceId}"
        casLastPolledAt := if result.fetchOk && polled.any (·.autoManaged) then
          some (env.casPolledAt sourceId) else source.casLastPolledAt }
      id_set := fun _ => rfl
      left := fun _ _ => Iff.rfl
      right := fun _ _ => Iff.rfl }

section

variable [UnicodeTables] {σ : Type} (env : PollEnv) (intake : Intake σ)

/-- `get_provider` and its `fetch_source`; `none` where the kind of the source is unknown. -/
def fetchFrom (emails : Table emailSchema) (item : SourceRules) : Option FetchSourceResult :=
  let source := item.1
  let existing := existingRemoteIds emails source.id
  let rules := item.2.map (·.toFetchRule)
  if source.provider = "gmail" then
    some (fetchGmailSource (env.imap source.id) (env.fetchedAt source.id) source.lastSyncedAt
      env.address source.id (env.credentials source.id) env.fetchLimit existing rules)
  else if source.provider = "fastmail" then
    some (fetchFastmailSource (env.jmap source.id) (env.fetchedAt source.id) source.lastSyncedAt
      env.address source.id env.fetchLimit (env.token source.id) existing rules)
  else none

omit [UnicodeTables] in
/-- The emails of the source in the order they are gone through. -/
def deliveriesOf (result : FetchSourceResult) (item : SourceRules) : List Delivery :=
  item.2.flatMap fun rule => (result.resultsByRule rule.id).map (⟨item.1, rule, ·⟩)

/-- One email that the poll has not had. -/
def handleMail (st : PollState σ) (d : Delivery) : PollState σ × Handled :=
  let out := handlePolledEmail intake st.world.store d.source.provider d.source.id d.rule d.mail
  let result := (dispatched intake st.world.store d.source.id d.rule d.mail).2
  ({ world := { st.world with store := out.1 }
     insertedMsgIds := d.mail.msgId :: st.insertedMsgIds
     stats := out.2.1.foldl Stats.count { st.stats with fetched := st.stats.fetched + 1 }
     log := st.log ++ [{ d with
       statement := result.stmtResult.isSome
       handled := out.2.2 }] }, out.2.2)

/-- One email, unless the poll has had it. -/
def pollMail (st : PollState σ) (d : Delivery) : Except (PollState σ) (PollState σ) :=
  if d.mail.msgId ∈ st.insertedMsgIds then .ok st
  else if (handleMail intake st d).2 = .raised then .error (handleMail intake st d).1
  else .ok (handleMail intake st d).1

/-- One source; `st` has counted its rules. -/
def pollFetched (st : PollState σ) (item : SourceRules) (result : FetchSourceResult) :
    Except (PollState σ) (PollState σ) := do
  let st ← (deliveriesOf result item).foldlM (pollMail intake) st
  return { st with world := { st.world with
    rules := stampRules (env.stampedAt item.1.id) result item.2 st.world.rules
    sources := syncSource env result item.2 item.1.id st.world.sources } }

def pollSource (st : PollState σ) (item : SourceRules) : Except (PollState σ) (PollState σ) :=
  let counted := { st with stats := { st.stats with rules := st.stats.rules + item.2.length } }
  match fetchFrom env st.world.store.emails item with
  | none => .error counted
  | some result => pollFetched env intake counted item result

def startPoll (world : World σ) : PollState σ := ⟨world, [], .zero, []⟩

/-- The poll of the enabled rules, and whether it was completed. -/
def poll (world : World σ) : Except (PollState σ) (PollState σ) :=
  (rulesBySource world.rules world.sources).items.foldlM (pollSource env intake) (startPoll world)

end

/-! ### What one email adds -/

/-- What the poll decides of a row. -/
structure EmailKey where
  messageId : String
  sourceId : Nat
  remoteId : String
  ruleId : Nat
  deriving DecidableEq

def EmailRow.key (row : EmailRow) : EmailKey :=
  ⟨row.messageId, row.sourceId, row.remoteId, row.ruleId⟩

def Delivery.key (d : Delivery) : EmailKey :=
  ⟨d.mail.msgId, d.source.id, d.mail.remoteId, d.rule.id⟩

def keysOf (emails : Table emailSchema) : List EmailKey := emails.rows.map (·.key)

/-- The keys of the emails that have got their row. -/
def committedKeys (log : List Dispatch) : List EmailKey :=
  (log.filter (·.handled = .committed)).map (·.key)

section Mail

variable [UnicodeTables] {σ : Type} {intake : Intake σ} {st : PollState σ} {d : Delivery}

omit [UnicodeTables] in
theorem committedKeys_append (log more : List Dispatch) :
    committedKeys (log ++ more) = committedKeys log ++ committedKeys more := by
  unfold committedKeys
  rw [List.filter_append, List.map_append]

omit [UnicodeTables] in
theorem committedKeys_singleton (e : Dispatch) :
    committedKeys [e] = if e.handled = .committed then [e.key] else [] := by
  unfold committedKeys
  by_cases h : e.handled = .committed
  · rw [if_pos h, List.filter_cons_of_pos (by simp [h])]
    rfl
  · rw [if_neg h, List.filter_cons_of_neg (by simp [h])]
    rfl

omit [UnicodeTables] in
theorem storedAlready_iff {store : Store σ} {sourceId : Nat} {mail : FetchedEmail} :
    StoredAlready store sourceId mail ↔ ∃ k ∈ keysOf store.emails, k.messageId = mail.msgId ∨
      k.sourceId = sourceId ∧ k.remoteId = mail.remoteId := by
  constructor
  · rintro ⟨row, hrow, hclash⟩
    exact ⟨row.key, List.mem_map_of_mem hrow, hclash⟩
  · rintro ⟨k, hk, hclash⟩
    obtain ⟨row, hrow, rfl⟩ := List.mem_map.mp hk
    exact ⟨row, hrow, hclash⟩

variable (intake st d) in
/-- **What handling an email comes to**: it raises where the email is stored, and where it does
not, the email has its row or leaves the rows as they were. -/
theorem handleMail_spec : ((handleMail intake st d).2 = .raised ↔
      ∃ k ∈ keysOf st.world.store.emails, k.messageId = d.mail.msgId ∨
        k.sourceId = d.source.id ∧ k.remoteId = d.mail.remoteId) ∧
    keysOf (handleMail intake st d).1.world.store.emails = keysOf st.world.store.emails ++
      if (handleMail intake st d).2 = .committed then [d.key] else [] := by
  have hspec := outcome_handlePolledEmail intake st.world.store d.source.provider d.source.id d.rule
    d.mail
  unfold handleMail
  rw [← storedAlready_iff]
  dsimp only
  generalize handlePolledEmail intake st.world.store d.source.provider d.source.id d.rule
    d.mail = out at hspec ⊢
  obtain ⟨store, counters, handled⟩ := out
  cases hspec with
  | raised stored => exact ⟨iff_of_true rfl stored, (List.append_nil _).symm⟩
  | rolledBack new refused => exact ⟨iff_of_false Handled.noConfusion new, (List.append_nil _).symm⟩
  | committed new row accounted =>
    refine ⟨iff_of_false Handled.noConfusion new, ?_⟩
    unfold keysOf
    rw [row, List.map_append]
    rfl

/-- What was counted of the emails that were handled. -/
def Stats.handled (stats : Stats) : Nat := stats.parsed + stats.failed + stats.skipped

omit [UnicodeTables] in
theorem foldl_count (counters : List Counter) (stats : Stats) :
    (counters.foldl Stats.count stats).fetched = stats.fetched ∧
      (counters.foldl Stats.count stats).handled = stats.handled + counters.length := by
  induction counters generalizing stats with
  | nil => exact ⟨rfl, rfl⟩
  | cons counter counters ih =>
    obtain ⟨hfetched, hhandled⟩ := ih (stats.count counter)
    rw [List.foldl_cons, List.length_cons, hfetched, hhandled]
    cases counter with
    | parsed => exact ⟨rfl, by simp only [Stats.handled, Stats.count]; omega⟩
    | failed => exact ⟨rfl, by simp only [Stats.handled, Stats.count]; omega⟩
    | skipped => exact ⟨rfl, by simp only [Stats.handled, Stats.count]; omega⟩

/-- An email that is handled to its end is counted once, and a statement twice. -/
theorem length_counters {store : Store σ} {provider : String} {sourceId : Nat}
    {rule : PolledRule} {mail : FetchedEmail}
    (h : (handlePolledEmail intake store provider sourceId rule mail).2.2 ≠ .raised) :
    (handlePolledEmail intake store provider sourceId rule mail).2.1.length =
      (if (dispatched intake store sourceId rule mail).2.stmtResult.isSome then 1 else 0) + 1 := by
  unfold handlePolledEmail at h ⊢
  dsimp only at h ⊢
  cases hinsert : store.emails.insert (newEmailRow provider sourceId rule mail
      (intake.read mail.rawBytes) (book store.table store.emails.nextId
        (dispatched intake store sourceId rule mail).2)) with
  | none =>
    rw [hinsert] at h
    exact absurd rfl h
  | some emails =>
    dsimp only
    have hcounted : (if (dispatched intake store sourceId rule mail).2.stmtResult.isSome then
        [Counter.parsed] else []).length =
          if (dispatched intake store sourceId rule mail).2.stmtResult.isSome then 1 else 0 := by
      split_ifs <;> rfl
    cases book store.table store.emails.nextId (dispatched intake store sourceId rule mail).2 with
    | none => exact (List.length_append).trans (congrArg (· + 1) hcounted)
    | some booking => exact (List.length_append).trans (congrArg (· + 1) hcounted)

end Mail

/-! ### What a poll handles -/

section Newcomers

/-- An email is handled unless one of its id was. -/
def takeId (taken : List String) (d : Delivery) : Option String :=
  if d.mail.msgId ∈ taken then none else some d.mail.msgId

/-- The emails of which none with the same id came before. -/
def newcomers (taken : List String) (ds : List Delivery) : List Delivery :=
  (FirstCome.serve takeId taken ds).served.map Prod.fst

end Newcomers

/-- From one state of a poll to another, by way of these emails. -/
structure Follows {σ : Type} (st : PollState σ) (ds : List Delivery) (st' : PollState σ) :
    Prop where
  inserted : st'.insertedMsgIds =
    (FirstCome.serve takeId st.insertedMsgIds ds).given.reverse ++ st.insertedMsgIds
  /-- The emails that are new are handled in their order, and none raises. -/
  handled : ∃ more : List Dispatch, st'.log = st.log ++ more ∧
    more.map (·.toDelivery) = newcomers st.insertedMsgIds ds ∧
    (∀ e ∈ more, e.handled ≠ .raised) ∧
    keysOf st'.world.store.emails = keysOf st.world.store.emails ++ committedKeys more ∧
    st'.stats.fetched = st.stats.fetched + more.length ∧
    st'.stats.handled = st.stats.handled + more.length + more.countP (·.statement)

section Follows

variable [UnicodeTables] {σ : Type} {intake : Intake σ} {st st₁ st₂ : PollState σ} {d : Delivery}
  {ds ds' : List Delivery}

omit [UnicodeTables] in
theorem Follows.refl (st : PollState σ) : Follows st [] st :=
  ⟨rfl, [], (List.append_nil _).symm, rfl, fun _ he => absurd he List.not_mem_nil,
    (List.append_nil _).symm, rfl, rfl⟩

omit [UnicodeTables] in
theorem Follows.trans (h : Follows st ds st₁) (h' : Follows st₁ ds' st₂) :
    Follows st (ds ++ ds') st₂ := by
  obtain ⟨more, hlog, hnew, hraised, hkeys, hfetched, hhandled⟩ := h.handled
  obtain ⟨more', hlog', hnew', hraised', hkeys', hfetched', hhandled'⟩ := h'.handled
  have hserve := FirstCome.serve_append takeId st.insertedMsgIds ds ds'
  rw [← h.inserted] at hserve
  refine ⟨?_, more ++ more', ?_, ?_, ?_, ?_, ?_, ?_⟩
  · rw [h'.inserted, hserve]
    simp [FirstCome.Outcome.given, h.inserted]
  · rw [hlog', hlog, List.append_assoc]
  · rw [List.map_append, hnew, hnew']
    unfold newcomers
    rw [hserve, List.map_append]
  · intro e he
    rcases List.mem_append.mp he with he | he
    · exact hraised e he
    · exact hraised' e he
  · rw [hkeys', hkeys, committedKeys_append, List.append_assoc]
  · rw [hfetched', hfetched, List.length_append]
    omega
  · rw [hhandled', hhandled, List.length_append, List.countP_append]
    omega

omit [UnicodeTables] in
/-- An email that the poll has had. -/
theorem follows_of_mem (h : d.mail.msgId ∈ st.insertedMsgIds) : Follows st [d] st := by
  have hnone : takeId st.insertedMsgIds d = none := if_pos h
  have hserve : FirstCome.serve takeId st.insertedMsgIds [d] = ⟨[], [d]⟩ :=
    FirstCome.serve_cons_none hnone
  refine ⟨by rw [hserve]; rfl, [], (List.append_nil _).symm, ?_,
    fun _ he => absurd he List.not_mem_nil, (List.append_nil _).symm, rfl, rfl⟩
  unfold newcomers
  rw [hserve]
  rfl

theorem follows_handleMail (h : d.mail.msgId ∉ st.insertedMsgIds)
    (hraised : (handleMail intake st d).2 ≠ .raised) :
    Follows st [d] (handleMail intake st d).1 := by
  have hsome : takeId st.insertedMsgIds d = some d.mail.msgId := if_neg h
  have hserve : FirstCome.serve takeId st.insertedMsgIds [d] = ⟨[(d, d.mail.msgId)], []⟩ :=
    FirstCome.serve_cons_some hsome
  obtain ⟨hfetched, hhandled⟩ := foldl_count
    (handlePolledEmail intake st.world.store d.source.provider d.source.id d.rule d.mail).2.1
    { st.stats with fetched := st.stats.fetched + 1 }
  rw [length_counters hraised] at hhandled
  refine ⟨by rw [hserve]; rfl, _, rfl, ?_, ?_, ?_, hfetched, ?_⟩
  · unfold newcomers
    rw [hserve]
    rfl
  · intro e he
    rw [List.mem_singleton.mp he]
    exact hraised
  · rw [(handleMail_spec intake st d).2, committedKeys_singleton]
    rfl
  · rw [List.countP_singleton, List.length_singleton]
    exact hhandled.trans (Nat.add_right_comm st.stats.handled _ 1)

/-- Every email has the id of its message, at one of the two providers. -/
def Keyed (keys : List EmailKey) : Prop :=
  ∀ k ∈ keys, ∃ kind ∈ providerKinds, k.messageId = messageIdOf k.sourceId kind k.remoteId

/-- What there is of the source was stored before it was fetched from, or the poll has had it. -/
structure Clear (existing : List String) (source : EmailSource) (st : PollState σ) : Prop where
  keyed : Keyed (keysOf st.world.store.emails)
  had : ∀ k ∈ keysOf st.world.store.emails, k.sourceId = source.id → k.remoteId ∈ existing ∨
    messageIdOf source.id source.provider k.remoteId ∈ st.insertedMsgIds

/-- The email is one of the source that was not stored. -/
structure New (existing : List String) (source : EmailSource) (d : Delivery) : Prop where
  ofSource : d.source = source
  known : source.provider ∈ providerKinds
  msgId : d.mail.msgId = messageIdOf source.id source.provider d.mail.remoteId
  fresh : d.mail.remoteId ∉ existing

variable {existing : List String} {source : EmailSource}

/-- **An email that is new does not raise.** -/
theorem New.not_raised (hnew : New existing source d) (hclear : Clear existing source st)
    (h : d.mail.msgId ∉ st.insertedMsgIds) : (handleMail intake st d).2 ≠ .raised := by
  intro hraised
  obtain ⟨k, hk, hclash⟩ := (handleMail_spec intake st d).1.mp hraised
  have hsame : k.sourceId = source.id ∧ k.remoteId = d.mail.remoteId := by
    rcases hclash with hid | hremote
    · obtain ⟨kind, hkind, hmessage⟩ := hclear.keyed k hk
      exact messageIdOf_injective hkind hnew.known (hmessage.symm.trans (hid.trans hnew.msgId))
    · rwa [hnew.ofSource] at hremote
  rcases hclear.had k hk hsame.1 with hstored | hhad
  · rw [hsame.2] at hstored
    exact hnew.fresh hstored
  · rw [hsame.2, ← hnew.msgId] at hhad
    exact h hhad

variable (intake) in
/-- Handling it leaves what there is of the source accounted for. -/
theorem New.clear_handleMail (hnew : New existing source d) (hclear : Clear existing source st) :
    Clear existing source (handleMail intake st d).1 := by
  have hkeys : ∀ k ∈ keysOf (handleMail intake st d).1.world.store.emails,
      k ∈ keysOf st.world.store.emails ∨ k = d.key := by
    intro k hk
    rw [(handleMail_spec intake st d).2] at hk
    rcases List.mem_append.mp hk with hk | hk
    · exact .inl hk
    · split_ifs at hk
      · exact .inr (List.mem_singleton.mp hk)
      · cases hk
  constructor
  · intro k hk
    rcases hkeys k hk with hk | rfl
    · exact hclear.keyed k hk
    · refine ⟨source.provider, hnew.known, ?_⟩
      show d.mail.msgId = messageIdOf d.source.id source.provider d.mail.remoteId
      rw [hnew.ofSource]
      exact hnew.msgId
  · intro k hk hsource
    rcases hkeys k hk with hk | rfl
    · exact (hclear.had k hk hsource).imp_right (List.mem_cons_of_mem _)
    · refine .inr ?_
      show messageIdOf source.id source.provider d.mail.remoteId ∈ d.mail.msgId :: st.insertedMsgIds
      rw [← hnew.msgId]
      exact List.mem_cons_self

variable (intake) in
/-- **The emails of a source are gone through to the end.** -/
theorem exists_pollMails (hnew : ∀ d ∈ ds, New existing source d)
    (hclear : Clear existing source st) :
    ∃ st', ds.foldlM (pollMail intake) st = .ok st' ∧ Keyed (keysOf st'.world.store.emails) ∧
      Follows st ds st' := by
  induction ds generalizing st with
  | nil => exact ⟨st, rfl, hclear.keyed, .refl st⟩
  | cons d ds ih =>
    obtain ⟨hd, hds⟩ := List.forall_mem_cons.mp hnew
    by_cases h : d.mail.msgId ∈ st.insertedMsgIds
    · obtain ⟨st', hrest, hkeyed, hfollows⟩ := ih hds hclear
      refine ⟨st', ?_, hkeyed, (follows_of_mem h).trans hfollows⟩
      rw [List.foldlM_cons, pollMail, if_pos h]
      exact hrest
    · obtain ⟨st', hrest, hkeyed, hfollows⟩ := 
        ih hds (hd.clear_handleMail intake hclear)
      have hraised : (handleMail intake st d).2 ≠ .raised := hd.not_raised hclear h
      refine ⟨st', ?_, hkeyed, (follows_handleMail h hraised).trans hfollows⟩
      rw [List.foldlM_cons, pollMail, if_neg h, if_neg hraised]
      exact hrest

end Follows

/-! ### Source by source -/

section Sources

variable [UnicodeTables] {σ : Type} {env : PollEnv} {intake : Intake σ} {st st' : PollState σ}
  {emails emails' : Table emailSchema} {item : SourceRules} {items : List SourceRules}
  {result : FetchSourceResult} {id : Nat} {e : FetchedEmail} {d : Delivery}

theorem fetchFrom_eq_none : fetchFrom env emails item = none ↔ item.1.provider ∉ providerKinds := by
  unfold fetchFrom providerKinds
  dsimp only
  split_ifs with hgmail hfastmail
  · simp [hgmail]
  · simp [hfastmail]
  · simp [hgmail, hfastmail]

/-- What is delivered has the id of its message, and is new where the headers come back. -/
theorem fetchFrom_spec (h : fetchFrom env emails item = some result)
    (he : e ∈ result.resultsByRule id) :
    item.1.provider ∈ providerKinds ∧ e.msgId = messageIdOf item.1.id item.1.provider e.remoteId ∧
      (HeadersComeBack (env.imap item.1.id) → e.remoteId ∉ existingRemoteIds emails item.1.id) := by
  unfold fetchFrom at h
  dsimp only at h
  split_ifs at h with hgmail hfastmail
  · obtain rfl := Option.some.inj h
    rw [hgmail]
    refine ⟨by decide, ?_, fun hheaders => fresh_fetchGmailSource hheaders he⟩
    obtain ⟨-, -, key, -, -, -, rfl⟩ := mem_fetchGmailSource he
    rfl
  · obtain rfl := Option.some.inj h
    obtain ⟨hfresh, hid⟩ := fresh_fetchFastmailSource he
    rw [hfastmail]
    exact ⟨by decide, hid, fun _ => hfresh⟩

/-- What a source delivers to a poll that finds these emails. -/
def deliveredBy (env : PollEnv) (emails : Table emailSchema) (item : SourceRules) :
    List Delivery :=
  ((fetchFrom env emails item).map (deliveriesOf · item)).getD []

omit [UnicodeTables] in
theorem mem_deliveriesOf : d ∈ deliveriesOf result item ↔
    d.source = item.1 ∧ d.rule ∈ item.2 ∧ d.mail ∈ result.resultsByRule d.rule.id := by
  unfold deliveriesOf
  rw [List.mem_flatMap]
  constructor
  · rintro ⟨rule, hrule, hd⟩
    obtain ⟨mail, hmail, rfl⟩ := List.mem_map.mp hd
    exact ⟨rfl, hrule, hmail⟩
  · rintro ⟨hsource, hrule, hmail⟩
    exact ⟨d.rule, hrule, List.mem_map.mpr ⟨d.mail, hmail, by rw [← hsource]⟩⟩

omit [UnicodeTables] in
theorem existingRemoteIds_eq (emails : Table emailSchema) (sourceId : Nat) :
    existingRemoteIds emails sourceId =
      ((keysOf emails).filter (·.sourceId = sourceId)).map (·.remoteId) := by
  unfold existingRemoteIds keysOf
  rw [List.filter_map, List.map_map]
  rfl

variable (intake) in
/-- **A source of a known kind is polled to the end.** -/
theorem exists_pollSource (hheaders : HeadersComeBack (env.imap item.1.id))
    (hkeyed : Keyed (keysOf st.world.store.emails)) (hknown : item.1.provider ∈ providerKinds) :
    ∃ st', pollSource env intake st item = .ok st' ∧ Keyed (keysOf st'.world.store.emails) ∧
      Follows st (deliveredBy env st.world.store.emails item) st' := by
  obtain ⟨result, hresult⟩ : ∃ result, fetchFrom env st.world.store.emails item = some result :=
    Option.ne_none_iff_exists'.mp fun hnone => fetchFrom_eq_none.mp hnone hknown
  have hnew : ∀ d ∈ deliveriesOf result item,
      New (existingRemoteIds st.world.store.emails item.1.id) item.1 d := by
    intro d hd
    obtain ⟨hsource, -, hmail⟩ := mem_deliveriesOf.mp hd
    obtain ⟨hkind, hid, hfresh⟩ := fetchFrom_spec hresult hmail
    exact ⟨hsource, hkind, hid, hfresh hheaders⟩
  have hclear : Clear (existingRemoteIds st.world.store.emails item.1.id) item.1
      { st with stats := { st.stats with rules := st.stats.rules + item.2.length } } := by
    refine ⟨hkeyed, fun k hk hsource => .inl ?_⟩
    rw [existingRemoteIds_eq]
    exact List.mem_map.mpr ⟨k, List.mem_filter.mpr ⟨hk, decide_eq_true hsource⟩, rfl⟩
  obtain ⟨st₁, hpolled, hkeyed₁, hfollows⟩ := exists_pollMails intake hnew hclear
  refine ⟨{ st₁ with world := { st₁.world with
    rules := stampRules (env.stampedAt item.1.id) result item.2 st₁.world.rules
    sources := syncSource env result item.2 item.1.id st₁.world.sources } }, ?_, hkeyed₁, ?_⟩
  · unfold pollSource pollFetched
    rw [hresult]
    dsimp only
    rw [hpolled]
    rfl
  · have hdelivered : deliveredBy env st.world.store.emails item = deliveriesOf result item := by
      unfold deliveredBy
      rw [hresult]
      rfl
    rw [hdelivered]
    exact ⟨hfollows.inserted, hfollows.handled⟩

end Sources

/-! ### Two mails and two rules -/

def letterIntake : Intake Unit where
  parseEmail _ _ := .error "no parser"
  processCasEmail s _ _ := (s, .refused none)
  processCcStatementEmailSummary s _ _ := (s, .nothing)
  processStatementEmail s _ _ _ _ := (s, .nothing)
  processBankStatementEmail s _ _ _ _ := (s, .nothing)
  read rawBytes := ⟨⟨none, none, none⟩, "bank", "statement", rawBytes⟩
  linkEmail s _ _ := s

def letterRule (id : Nat) : PolledRule where
  toFetchRule := { openRule with id }
  sourceId := some 1
  bank := "hdfc"
  emailKind := some .transaction
  enabled := true
  autoManaged := false

def letterWorld : World Unit where
  rules := ⟨[letterRule 1, letterRule 2], by decide, by decide⟩
  sources := ⟨[⟨1, "gmail", true, none, none, none⟩], by decide, by decide⟩
  store := ⟨.empty, .empty, ()⟩

def letterEnv : PollEnv where
  imap _ := twoLetters
  credentials _ := true
  jmap _ := twoJmapLetters
  token _ := true
  address := id
  fetchLimit := 50
  fetchedAt _ := 0
  stampedAt _ := 0
  syncedAt _ := 0
  casPolledAt _ := 0

theorem headersComeBack_twoLetters : HeadersComeBack twoLetters where
  opens folder hrefused := by cases hrefused
  answers _ batch := List.Subset.refl batch

/-- The state a poll leaves, completed or not. -/
def leaves {α : Type} : Except α α → α
  | .ok a => a
  | .error a => a

theorem leaves_foldlM {α β : Type} {P : α → Prop} {f : α → β → Except α α} {l : List β}
    (hstep : ∀ a, ∀ b ∈ l, P a → P (leaves (f a b))) {a : α} (h : P a) :
    P (leaves (l.foldlM f a)) := by
  induction l generalizing a with
  | nil => exact h
  | cons b l ih =>
    have hfirst := hstep a b List.mem_cons_self h
    rw [List.foldlM_cons]
    cases hnext : f a b with
    | error a' =>
      rw [hnext] at hfirst
      exact hfirst
    | ok a' =>
      rw [hnext] at hfirst
      exact ih (fun a b hb => hstep a b (List.mem_cons_of_mem _ hb)) hfirst

/-- The program between its polls; `history` is all that was handled. -/
structure Polled (σ : Type) where
  world : World σ
  history : List Dispatch

inductive PollEvent (σ : Type)
  | poll (env : PollEnv)
  /-- Whatever else the program does; it adds no email, and deletes none. -/
  | change (world : World σ)

section Runs

variable [UnicodeTables] {σ : Type}

def afterPoll (env : PollEnv) (intake : Intake σ) (s : Polled σ) : Polled σ :=
  let st := leaves (poll env intake s.world)
  ⟨st.world, s.history ++ st.log⟩

def polls (intake : Intake σ) : Transition.System (Polled σ) (PollEvent σ) where
  step s
    | .poll env => some (afterPoll env intake s)
    | .change world =>
      if keysOf world.store.emails = keysOf s.world.store.emails then some ⟨world, s.history⟩
      else none

/-- The emails are those there were and those that were handled since; and of an email that has its
row, no other is handled but to raise. -/
structure Once (start : List EmailKey) (history : List Dispatch) (keys : List EmailKey) : Prop where
  rows : keys = start ++ committedKeys history
  once : history.Pairwise fun a b =>
    a.handled = .committed → b.mail.msgId = a.mail.msgId → b.handled = .raised

/-- No email has raised. -/
structure Calm (history : List Dispatch) (keys : List EmailKey) : Prop where
  keyed : Keyed keys
  calm : ∀ e ∈ history, e.handled ≠ .raised

variable {env : PollEnv} {intake : Intake σ} {start : List EmailKey} {history : List Dispatch}
  {world : World σ} {st : PollState σ}

theorem once_handleMail {d : Delivery}
    (h : Once start (history ++ st.log) (keysOf st.world.store.emails)) :
    Once start (history ++ (handleMail intake st d).1.log)
      (keysOf (handleMail intake st d).1.world.store.emails) := by
  obtain ⟨hraised, hkeys⟩ := handleMail_spec intake st d
  unfold handleMail at hraised hkeys ⊢
  dsimp only at hraised hkeys ⊢
  rw [← List.append_assoc]
  constructor
  · rw [hkeys, h.rows, committedKeys_append (history ++ st.log), committedKeys_singleton,
      List.append_assoc]
  · refine List.pairwise_append.mpr ⟨h.once, List.pairwise_singleton _ _, ?_⟩
    intro a ha b hb hcommitted hid
    rw [List.mem_singleton.mp hb] at hid ⊢
    -- the row of the first is there when the second is handled
    refine hraised.mpr ⟨a.key, ?_, .inl hid.symm⟩
    rw [h.rows]
    exact List.mem_append_right _ (List.mem_map.mpr
      ⟨a, List.mem_filter.mpr ⟨ha, decide_eq_true hcommitted⟩, rfl⟩)

theorem once_pollMail (d : Delivery)
    (h : Once start (history ++ st.log) (keysOf st.world.store.emails)) :
    Once start (history ++ (leaves (pollMail intake st d)).log)
      (keysOf (leaves (pollMail intake st d)).world.store.emails) := by
  unfold pollMail
  split_ifs
  · exact h
  · exact once_handleMail h
  · exact once_handleMail h

theorem once_pollSource (item : SourceRules)
    (h : Once start (history ++ st.log) (keysOf st.world.store.emails)) :
    Once start (history ++ (leaves (pollSource env intake st item)).log)
      (keysOf (leaves (pollSource env intake st item)).world.store.emails) := by
  unfold pollSource
  cases fetchFrom env st.world.store.emails item with
  | none => exact h
  | some result =>
    dsimp only
    unfold pollFetched
    have hfold := leaves_foldlM (f := pollMail intake)
      (P := fun st : PollState σ =>
      Once start (history ++ st.log) (keysOf st.world.store.emails))
      (l := deliveriesOf result item) (fun _ d _ h => once_pollMail d h)
      (a := { st with stats := { st.stats with rules := st.stats.rules + item.2.length } }) h
    cases hpolled : (deliveriesOf result item).foldlM (pollMail intake)
        { st with stats := { st.stats with rules := st.stats.rules + item.2.length } } with
    | error st' =>
      rw [hpolled] at hfold
      exact hfold
    | ok st' =>
      rw [hpolled] at hfold
      exact hfold

theorem once_poll (h : Once start history (keysOf world.store.emails)) :
    Once start (history ++ (leaves (poll env intake world)).log)
      (keysOf (leaves (poll env intake world)).world.store.emails) := by
  refine leaves_foldlM
    (P := fun st : PollState σ =>
      Once start (history ++ st.log) (keysOf st.world.store.emails))
    (fun _ item _ h => once_pollSource item h) ?_
  show Once start (history ++ []) (keysOf world.store.emails)
  rwa [List.append_nil]

theorem calm_pollSource (hheaders : ∀ id, HeadersComeBack (env.imap id)) (item : SourceRules)
    (h : Calm (history ++ st.log) (keysOf st.world.store.emails)) :
    Calm (history ++ (leaves (pollSource env intake st item)).log)
      (keysOf (leaves (pollSource env intake st item)).world.store.emails) := by
  by_cases hknown : item.1.provider ∈ providerKinds
  · obtain ⟨st', hst', hkeyed, hfollows⟩ :=
      exists_pollSource intake (hheaders item.1.id) h.keyed hknown
    obtain ⟨more, hlog, -, hraised, -⟩ := hfollows.handled
    rw [hst']
    refine ⟨hkeyed, ?_⟩
    show ∀ e ∈ history ++ st'.log, _
    rw [hlog, ← List.append_assoc]
    exact List.forall_mem_append.mpr ⟨h.calm, hraised⟩
  · unfold pollSource
    rw [fetchFrom_eq_none.mpr hknown]
    exact h

theorem calm_poll (hheaders : ∀ id, HeadersComeBack (env.imap id))
    (h : Calm history (keysOf world.store.emails)) :
    Calm (history ++ (leaves (poll env intake world)).log)
      (keysOf (leaves (poll env intake world)).world.store.emails) := by
  refine leaves_foldlM
    (P := fun st : PollState σ => Calm (history ++ st.log) (keysOf st.world.store.emails))
    (fun _ item _ h => calm_pollSource hheaders item h) ?_
  show Calm (history ++ []) (keysOf world.store.emails)
  rwa [List.append_nil]

/-- **Over any run of polls and of whatever else the program does, an email that has its row is
not handled again**, but that it is refused; and where the headers come back, none is refused.
The emails are those there were and those that were handled. -/
theorem handled_once {ok : Polled σ → PollEvent σ → Prop} {t : Polled σ}
    (h : (polls intake).Run ok ⟨world, []⟩ t) :
    keysOf t.world.store.emails = keysOf world.store.emails ++ committedKeys t.history ∧
    (t.history.Pairwise fun a b =>
      a.handled = .committed → b.mail.msgId = a.mail.msgId → b.handled = .raised) ∧
    (Keyed (keysOf world.store.emails) →
      (∀ s env, ok s (.poll env) → ∀ id, HeadersComeBack (env.imap id)) →
      ∀ e ∈ t.history, e.handled ≠ .raised) := by
  have honce : Once (keysOf world.store.emails) t.history (keysOf t.world.store.emails) := by
    refine h.invariant (I := fun s => Once (keysOf world.store.emails) s.history
      (keysOf s.world.store.emails)) (fun s e t hs _ hstep => ?_) ⟨(List.append_nil _).symm, .nil⟩
    cases e with
    | poll env =>
      obtain rfl := Option.some.inj hstep
      exact once_poll hs
    | change changed =>
      dsimp only [polls] at hstep
      split_ifs at hstep with hkeys
      obtain rfl := Option.some.inj hstep
      show Once _ s.history (keysOf changed.store.emails)
      rwa [hkeys]
  refine ⟨honce.rows, honce.once, fun hkeyed hheaders => ?_⟩
  have hcalm : Calm t.history (keysOf t.world.store.emails) := by
    refine h.invariant (I := fun s => Calm s.history (keysOf s.world.store.emails))
      (fun s e t hs hok hstep => ?_) ⟨hkeyed, fun e he => absurd he List.not_mem_nil⟩
    cases e with
    | poll env =>
      obtain rfl := Option.some.inj hstep
      exact calm_poll (hheaders s env hok) hs
    | change changed =>
      dsimp only [polls] at hstep
      split_ifs at hstep with hkeys
      obtain rfl := Option.some.inj hstep
      show Calm s.history (keysOf changed.store.emails)
      rwa [hkeys]
  exact hcalm.calm

end Runs

/-- The same two mails, polled twice. -/
theorem handled_twoLetters : ∃ t,
    (@polls asciiTables Unit letterIntake).Run (fun _ e => e = .poll letterEnv) ⟨letterWorld, []⟩ t ∧
      keysOf t.world.store.emails = committedKeys t.history ∧
        ∀ e ∈ t.history, e.handled ≠ .raised := by
  let _ := asciiTables
  obtain ⟨t, hrun⟩ : ∃ t, (polls letterIntake).Run (fun _ e => e = .poll letterEnv)
      ⟨letterWorld, []⟩ t := ⟨_, .tail (.tail (.refl _) rfl rfl) rfl rfl⟩
  obtain ⟨hkeys, -, hcalm⟩ := handled_once hrun
  refine ⟨t, hrun, hkeys, hcalm (fun k hk => absurd hk List.not_mem_nil) fun _ env henv => ?_⟩
  obtain rfl := PollEvent.poll.inj henv
  exact fun _ => headersComeBack_twoLetters

end FinancialDashboard.Mail
