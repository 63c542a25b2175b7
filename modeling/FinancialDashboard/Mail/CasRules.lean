import FinancialDashboard.Mail.PollAll

/-!
# The rules for account statements

`ensure_cas_fetch_rules` of `services/cas_emails.py`, with which `poll_all` begins: it keeps a rule
for each active source and each sender of consolidated account statements, and enables the rules of
a source when they were last polled a day ago.  The sources are polled for other mail in the
meantime, and the next search of a rule starts two days before the last sync.

* `ensureRule_spec`: one rule is kept or made, and the others stay.
* `any_autoManaged_iff`: a source is polled for statements unless it is on cooldown.
* `cas_cooldown`: a poll leaves a source on cooldown alone.
* `cas_no_gap`: the search after a cooldown reaches back before the last one began.
-/

namespace FinancialDashboard.Mail

open PyText PyTime

/-! ### The rules -/

structure CasSettings where
  autoFetchEnabled : Bool
  pan : String

structure CasSender where
  address : String
  bank : String

def casSenders : List CasSender :=
  [⟨"NSDL-CAS@nsdl.co.in", "cas_nsdl"⟩, ⟨"eCAS@cdslstatement.com", "cas_cdsl"⟩]

def casCooldown : Int := hours 24

def onCooldown (now : Int) (source : EmailSource) : Bool :=
  source.casLastPolledAt.any fun last => now - last < casCooldown

/-- The rule of a source for a sender. -/
def isCasRule (source : EmailSource) (sender : CasSender) (rule : PolledRule) : Bool :=
  rule.autoManaged && rule.sourceId = some source.id && rule.sender = some sender.address

def setEnabled (enabled : Bool) : Table.Change ruleSchema where
  set rule := { rule with enabled }
  id_set _ := rfl
  left _ _ := Iff.rfl
  right _ _ := Iff.rfl

def newCasRule (source : EmailSource) (sender : CasSender) (enabled : Bool) :
    Table.NewRow ruleSchema where
  make id :=
    { id
      sender := some sender.address
      subject := none
      folder := none
      initialBackfillDoneAt := none
      sourceId := some source.id
      bank := sender.bank
      emailKind := some .casStatement
      enabled
      autoManaged := true }
  id_make _ := rfl

/-- One source and one sender; `none` if the index refuses a rule. -/
def ensureRule (now : Int) (rules : Table ruleSchema) (p : EmailSource × CasSender) :
    Option (Table ruleSchema) :=
  let enabled := !onCooldown now p.1
  if rules.rows.any (isCasRule p.1 p.2) then
    some (rules.update (isCasRule p.1 p.2) (setEnabled enabled))
  else rules.insert (newCasRule p.1 p.2 enabled)

def hasActiveSource (sources : Table sourceSchema) (rule : PolledRule) : Bool :=
  sources.rows.any fun source => source.active && rule.sourceId = some source.id

def activePairs (sources : Table sourceSchema) : List (EmailSource × CasSender) :=
  (sources.rows.filter (·.active)).flatMap fun source => casSenders.map (source, ·)

variable [UnicodeTables]

/-- `_cas_enabled()` and a PAN. -/
def CasSettings.on (settings : CasSettings) : Bool :=
  settings.autoFetchEnabled && strip settings.pan ≠ ""

def ensureCasFetchRules (settings : CasSettings) (now : Int) (rules : Table ruleSchema)
    (sources : Table sourceSchema) : Option (Table ruleSchema) :=
  if !settings.on then some (rules.update (·.autoManaged) (setEnabled false))
  else
    (activePairs sources).foldlM (ensureRule now)
      (rules.update (fun rule => rule.autoManaged && !hasActiveSource sources rule)
        (setEnabled false))

/-- `poll_all`. -/
def pollAll {σ : Type} (settings : CasSettings) (now : Int) (env : PollEnv) (intake : Intake σ)
    (world : World σ) : Except (PollState σ) (PollState σ) :=
  match ensureCasFetchRules settings now world.rules world.sources with
  | none => .error (startPoll world)
  | some rules => poll env intake { world with rules }

/-! ### What is ensured -/

section Ensured

omit [UnicodeTables]

variable {now : Int} {rules rules' : Table ruleSchema} {sources : Table sourceSchema}
  {source other : EmailSource} {sender : CasSender} {rule : PolledRule}
  {p : EmailSource × CasSender}

theorem isCasRule_iff : isCasRule source sender rule = true ↔ rule.autoManaged = true ∧
    rule.sourceId = some source.id ∧ rule.sender = some sender.address := by
  unfold isCasRule
  rw [Bool.and_eq_true, Bool.and_eq_true, decide_eq_true_eq, decide_eq_true_eq, and_assoc]

/-- Two rules of one source for one sender are one rule. -/
theorem eq_of_isCasRule {rule' : PolledRule} (hmem : rule ∈ rules) (hmem' : rule' ∈ rules)
    (h : isCasRule source sender rule = true) (h' : isCasRule source sender rule' = true) :
    rule = rule' := by
  obtain ⟨hauto, hsource, hsender⟩ := isCasRule_iff.mp h
  obtain ⟨hauto', hsource', hsender'⟩ := isCasRule_iff.mp h'
  refine Table.eq_of_clashes (fun a b hclash => ?_) hmem hmem' ?_
  · obtain ⟨ha, hb, hne, heq, hne', heq'⟩ := hclash
    exact ⟨hb, ha, heq ▸ hne, heq.symm, heq' ▸ hne', heq'.symm⟩
  · exact ⟨hauto, hauto', by simp [hsource], hsource.trans hsource'.symm, by simp [hsender],
      hsender.trans hsender'.symm⟩

/-- The index never refuses a rule. -/
theorem exists_ensureRule (now : Int) (rules : Table ruleSchema) (p : EmailSource × CasSender) :
    ∃ rules', ensureRule now rules p = some rules' := by
  unfold ensureRule
  dsimp only
  split_ifs with hany
  · exact ⟨_, rfl⟩
  · refine Table.exists_insert fun rule hrule hclash => hany ?_
    obtain ⟨hauto, -, -, hsource, -, hsender⟩ := hclash
    exact List.any_eq_true.mpr ⟨rule, hrule, isCasRule_iff.mpr ⟨hauto, hsource, hsender⟩⟩

/-- **One rule is kept or made, and enabled unless the source is on cooldown**; the others
stay. -/
theorem ensureRule_spec (h : ensureRule now rules p = some rules') :
    (∃ rule ∈ rules', isCasRule p.1 p.2 rule = true ∧ rule.enabled = !onCooldown now p.1) ∧
    (∀ rule ∈ rules', rule ∈ rules ∨
      isCasRule p.1 p.2 rule = true ∧ rule.enabled = !onCooldown now p.1) ∧
    ∀ rule ∈ rules, isCasRule p.1 p.2 rule = false → rule ∈ rules' := by
  unfold ensureRule at h
  dsimp only at h
  split_ifs at h with hany
  · obtain rfl := Option.some.inj h
    obtain ⟨rule, hrule, hcas⟩ := List.any_eq_true.mp hany
    refine ⟨⟨_, Table.mem_update.mpr ⟨rule, hrule, .inl ⟨hcas, rfl⟩⟩, hcas, rfl⟩, ?_, ?_⟩
    · intro changed hchanged
      obtain ⟨rule, hrule, ⟨hcas, rfl⟩ | ⟨-, rfl⟩⟩ := Table.mem_update.mp hchanged
      · exact .inr ⟨hcas, rfl⟩
      · exact .inl hrule
    · exact fun rule hrule hnot => Table.mem_update.mpr ⟨rule, hrule, .inr ⟨hnot, rfl⟩⟩
  · have hnew : isCasRule p.1 p.2 (rules.next (newCasRule p.1 p.2 (!onCooldown now p.1))) = true :=
      isCasRule_iff.mpr ⟨rfl, rfl, rfl⟩
    refine ⟨⟨_, (Table.mem_insert h).mpr (.inr rfl), hnew, rfl⟩, ?_, ?_⟩
    · intro rule hrule
      rcases (Table.mem_insert h).mp hrule with hrule | rfl
      · exact .inl hrule
      · exact .inr ⟨hnew, rfl⟩
    · exact fun rule hrule _ => (Table.mem_insert h).mpr (.inl hrule)

/-- The source has its rule for the sender, and it is enabled unless the source is on cooldown. -/
def Ensured (now : Int) (rules : Table ruleSchema) (source : EmailSource) (sender : CasSender) :
    Prop :=
  ∃ rule ∈ rules, isCasRule source sender rule = true ∧ rule.enabled = !onCooldown now source

theorem Ensured.ensureRule (h : Ensured now rules source sender)
    (hsame : p.1.id = source.id → p.1 = source) (hstep : ensureRule now rules p = some rules') :
    Ensured now rules' source sender := by
  obtain ⟨⟨new, hnew, hcasNew, henabledNew⟩, -, hothers⟩ := ensureRule_spec hstep
  obtain ⟨rule, hrule, hcas, henabled⟩ := h
  cases hp : isCasRule p.1 p.2 rule with
  | false => exact ⟨rule, hothers rule hrule hp, hcas, henabled⟩
  | true =>
    obtain ⟨-, hsource, hsender⟩ := isCasRule_iff.mp hcas
    obtain ⟨-, hsource', hsender'⟩ := isCasRule_iff.mp hp
    obtain ⟨hauto, hsourceNew, hsenderNew⟩ := isCasRule_iff.mp hcasNew
    have heq : p.1 = source := hsame (Option.some.inj (hsource'.symm.trans hsource))
    rw [heq] at henabledNew hsourceNew
    refine ⟨new, hnew, isCasRule_iff.mpr ⟨hauto, hsourceNew, ?_⟩, henabledNew⟩
    exact hsenderNew.trans (hsender'.symm.trans hsender)

theorem Ensured.foldlM {pairs : List (EmailSource × CasSender)}
    (h : Ensured now rules source sender) (hsame : ∀ p ∈ pairs, p.1.id = source.id → p.1 = source)
    (hfold : pairs.foldlM (FinancialDashboard.Mail.ensureRule now) rules = some rules') :
    Ensured now rules' source sender := by
  induction pairs generalizing rules with
  | nil =>
    obtain rfl := Option.some.inj hfold
    exact h
  | cons p pairs ih =>
    obtain ⟨hp, hpairs⟩ := List.forall_mem_cons.mp hsame
    rw [List.foldlM_cons] at hfold
    obtain ⟨next, hnext, hrest⟩ := Option.bind_eq_some_iff.mp hfold
    exact ih (h.ensureRule hp hnext) hpairs hrest

/-- **Every source has its rules afterwards**, and there is no rule that is not one of these or was
there. -/
theorem ensureRules_spec {pairs : List (EmailSource × CasSender)}
    (hsources : ∀ p ∈ pairs, p.1 ∈ sources)
    (h : pairs.foldlM (ensureRule now) rules = some rules') :
    (∀ p ∈ pairs, Ensured now rules' p.1 p.2) ∧
    ∀ rule ∈ rules', rule ∈ rules ∨ ∃ p ∈ pairs, isCasRule p.1 p.2 rule = true := by
  induction pairs generalizing rules with
  | nil =>
    obtain rfl := Option.some.inj h
    exact ⟨fun p hp => absurd hp List.not_mem_nil, fun rule hrule => .inl hrule⟩
  | cons p pairs ih =>
    obtain ⟨hp, hpairs⟩ := List.forall_mem_cons.mp hsources
    rw [List.foldlM_cons] at h
    obtain ⟨next, hnext, hrest⟩ := Option.bind_eq_some_iff.mp h
    obtain ⟨hensured, hrules⟩ := ih hpairs hrest
    obtain ⟨hfirst, hkept, -⟩ := ensureRule_spec hnext
    refine ⟨List.forall_mem_cons.mpr ⟨?_, hensured⟩, fun rule hrule => ?_⟩
    · exact Ensured.foldlM hfirst (fun q hq hid => Table.eq_of_id_eq (hpairs q hq) hp hid) hrest
    · rcases hrules rule hrule with hrule | ⟨q, hq, hcas⟩
      · rcases hkept rule hrule with hrule | ⟨hcas, -⟩
        · exact .inl hrule
        · exact .inr ⟨p, List.mem_cons_self, hcas⟩
      · exact .inr ⟨q, List.mem_cons_of_mem p hq, hcas⟩

theorem exists_ensureRules (now : Int) (pairs : List (EmailSource × CasSender))
    (rules : Table ruleSchema) : ∃ rules', pairs.foldlM (ensureRule now) rules = some rules' := by
  induction pairs generalizing rules with
  | nil => exact ⟨rules, rfl⟩
  | cons p pairs ih =>
    obtain ⟨next, hnext⟩ := exists_ensureRule now rules p
    rw [List.foldlM_cons, hnext]
    exact ih next

theorem mem_activePairs : p ∈ activePairs sources ↔
    p.1 ∈ sources ∧ p.1.active = true ∧ p.2 ∈ casSenders := by
  unfold activePairs
  rw [List.mem_flatMap]
  constructor
  · rintro ⟨source, hsource, hp⟩
    obtain ⟨sender, hsender, rfl⟩ := List.mem_map.mp hp
    obtain ⟨hmem, hactive⟩ := List.mem_filter.mp hsource
    exact ⟨hmem, hactive, hsender⟩
  · rintro ⟨hmem, hactive, hsender⟩
    exact ⟨p.1, List.mem_filter.mpr ⟨hmem, hactive⟩, List.mem_map.mpr ⟨p.2, hsender, rfl⟩⟩

end Ensured

/-! ### What the poll makes of the rules -/

/-- An automatic rule is one for a source and a sender. -/
def Managed (rules : Table ruleSchema) : Prop :=
  ∀ rule ∈ rules, rule.autoManaged = true →
    rule.sourceId ≠ none ∧ ∃ sender ∈ casSenders, rule.sender = some sender.address

section Poll

variable {settings : CasSettings} {now : Int} {rules rules' : Table ruleSchema}
  {sources : Table sourceSchema} {source : EmailSource} {rule : PolledRule} {item : SourceRules}

theorem exists_ensureCasFetchRules (settings : CasSettings) (now : Int) (rules : Table ruleSchema)
    (sources : Table sourceSchema) :
    ∃ rules', ensureCasFetchRules settings now rules sources = some rules' := by
  unfold ensureCasFetchRules
  split_ifs
  · exact ⟨_, rfl⟩
  · exact exists_ensureRules now _ _

theorem managed_ensureCasFetchRules (hmanaged : Managed rules)
    (h : ensureCasFetchRules settings now rules sources = some rules') : Managed rules' := by
  have hdisabled : ∀ p, Managed (rules.update p (setEnabled false)) := by
    intro p changed hchanged hauto
    obtain ⟨rule, hrule, ⟨-, rfl⟩ | ⟨-, rfl⟩⟩ := Table.mem_update.mp hchanged
    · exact hmanaged rule hrule hauto
    · exact hmanaged _ hrule hauto
  unfold ensureCasFetchRules at h
  split_ifs at h
  · obtain rfl := Option.some.inj h
    exact hdisabled _
  · have hsources : ∀ p ∈ activePairs sources, p.1 ∈ sources := fun p hp => (mem_activePairs.mp hp).1
    intro rule hrule hauto
    rcases (ensureRules_spec hsources h).2 rule hrule with hrule | ⟨p, hp, hcas⟩
    · exact hdisabled _ rule hrule hauto
    · obtain ⟨-, hsource, hsender⟩ := isCasRule_iff.mp hcas
      exact ⟨by simp [hsource], p.2, (mem_activePairs.mp hp).2.2, hsender⟩

omit [UnicodeTables] in
/-- The source that a rule is polled at. -/
theorem sourceOf_eq_some : sourceOf sources rule = some source ↔
    rule.sourceId = some source.id ∧ source.id ≠ 0 ∧ source ∈ sources ∧ source.active = true := by
  unfold sourceOf
  rw [Option.bind_eq_some_iff]
  constructor
  · rintro ⟨id, hid, hfind⟩
    obtain ⟨hid, hne⟩ := Option.filter_eq_some_iff.mp hid
    have hfound := List.find?_some hfind
    rw [Bool.and_eq_true, decide_eq_true_eq] at hfound
    obtain ⟨hactive, rfl⟩ := hfound
    exact ⟨hid, of_decide_eq_true hne, List.mem_of_find?_eq_some hfind, hactive⟩
  · rintro ⟨hid, hne, hmem, hactive⟩
    refine ⟨source.id, Option.filter_eq_some_iff.mpr ⟨hid, decide_eq_true hne⟩, ?_⟩
    cases hfind : sources.rows.find? fun s => s.active && s.id = source.id with
    | none =>
      have hnone := List.find?_eq_none.mp hfind source hmem
      simp [hactive] at hnone
    | some found =>
      have hfound := List.find?_some hfind
      rw [Bool.and_eq_true, decide_eq_true_eq] at hfound
      rw [Table.eq_of_id_eq (List.mem_of_find?_eq_some hfind) hmem hfound.2]

omit [UnicodeTables] in
/-- The rules that a source is polled for. -/
theorem mem_rulesBySource (h : item ∈ (rulesBySource rules sources).items) : rule ∈ item.2 ↔
    rule ∈ rules ∧ rule.enabled = true ∧ sourceOf sources rule = some item.1 := by
  have hitem : (item.1, item.2) ∈ (rulesBySource rules sources).items := h
  rw [OrderedDict.mem_items_collect hitem, List.mem_map]
  constructor
  · rintro ⟨pair, hpair, rfl⟩
    obtain ⟨hpair, hkey⟩ := List.mem_filter.mp hpair
    obtain ⟨rule, hrule, hmapped⟩ := List.mem_filterMap.mp hpair
    obtain ⟨hmem, henabled⟩ := List.mem_filter.mp hrule
    obtain ⟨source, hsource, rfl⟩ := Option.map_eq_some_iff.mp hmapped
    have hsame : source = item.1 := of_decide_eq_true hkey
    exact ⟨hmem, henabled, hsame ▸ hsource⟩
  · rintro ⟨hmem, henabled, hsource⟩
    refine ⟨(item.1, rule), List.mem_filter.mpr ⟨?_, decide_eq_true rfl⟩, rfl⟩
    refine List.mem_filterMap.mpr ⟨rule, List.mem_filter.mpr ⟨hmem, henabled⟩, ?_⟩
    rw [hsource]
    rfl

omit [UnicodeTables] in
theorem source_of_mem_rulesBySource (h : item ∈ (rulesBySource rules sources).items) :
    item.1 ∈ sources ∧ item.1.active = true ∧ item.1.id ≠ 0 := by
  obtain ⟨rule, hrule⟩ := OrderedDict.mem_keys_collect.mp (List.mem_map_of_mem (f := Prod.fst) h)
  obtain ⟨other, -, hother⟩ := List.mem_filterMap.mp hrule
  obtain ⟨source, hsource, heq⟩ := Option.map_eq_some_iff.mp hother
  obtain ⟨rfl, -⟩ := Prod.mk.inj heq
  obtain ⟨-, hne, hmem, hactive⟩ := sourceOf_eq_some.mp hsource
  exact ⟨hmem, hactive, hne⟩

/-- **A source is polled for statements unless it is on cooldown.** -/
theorem any_autoManaged_iff (hmanaged : Managed rules) (hon : settings.on = true)
    (h : ensureCasFetchRules settings now rules sources = some rules')
    (hitem : item ∈ (rulesBySource rules' sources).items) :
    item.2.any (·.autoManaged) = !onCooldown now item.1 := by
  obtain ⟨hsource, hactive, hne⟩ := source_of_mem_rulesBySource hitem
  have hmanaged' : Managed rules' := managed_ensureCasFetchRules hmanaged h
  unfold ensureCasFetchRules at h
  rw [hon, Bool.not_true, if_neg Bool.false_ne_true] at h
  obtain ⟨hensured, -⟩ := ensureRules_spec (fun p hp => (mem_activePairs.mp hp).1) h
  have hrule : ∀ sender ∈ casSenders, Ensured now rules' item.1 sender := fun sender hsender =>
    hensured (item.1, sender) (mem_activePairs.mpr ⟨hsource, hactive, hsender⟩)
  cases hcooldown : onCooldown now item.1 with
  | false =>
    obtain ⟨rule, hmem, hcas, henabled⟩ := hrule _ (List.mem_cons_self (l := casSenders.tail))
    obtain ⟨hauto, hid, -⟩ := isCasRule_iff.mp hcas
    rw [hcooldown] at henabled
    exact List.any_eq_true.mpr ⟨rule, (mem_rulesBySource hitem).mpr ⟨hmem, henabled,
      sourceOf_eq_some.mpr ⟨hid, hne, hsource, hactive⟩⟩, hauto⟩
  | true =>
    rw [Bool.not_true, List.any_eq_false]
    intro rule hmem hauto
    obtain ⟨hmem, henabled, hat⟩ := (mem_rulesBySource hitem).mp hmem
    obtain ⟨-, sender, hsender, haddress⟩ := hmanaged' rule hmem hauto
    obtain ⟨ensured, hensuredMem, hcas, hdisabled⟩ := hrule sender hsender
    -- the index admits one rule for the source and the sender
    have hsame : rule = ensured := eq_of_isCasRule hmem hensuredMem
      (isCasRule_iff.mpr ⟨hauto, (sourceOf_eq_some.mp hat).1, haddress⟩) hcas
    rw [hcooldown, ← hsame, henabled] at hdisabled
    cases hdisabled

/-- Where statements are off, none is polled for. -/
theorem any_autoManaged_of_off (hon : settings.on = false)
    (h : ensureCasFetchRules settings now rules sources = some rules')
    (hitem : item ∈ (rulesBySource rules' sources).items) :
    item.2.any (·.autoManaged) = false := by
  unfold ensureCasFetchRules at h
  rw [hon, Bool.not_false, if_pos rfl] at h
  obtain rfl := Option.some.inj h
  rw [List.any_eq_false]
  intro changed hmem hauto
  obtain ⟨hmem, henabled, -⟩ := (mem_rulesBySource hitem).mp hmem
  obtain ⟨rule, -, ⟨-, rfl⟩ | ⟨hnot, rfl⟩⟩ := Table.mem_update.mp hmem
  · cases henabled
  · rw [hauto] at hnot
    cases hnot

end Poll

/-! ### What a poll stamps -/

section Stamps

variable {σ : Type} {intake : Intake σ} {settings : CasSettings} {now : Int} {env : PollEnv}
  {st : PollState σ} {world : World σ} {item : SourceRules} {result : FetchSourceResult}
  {source : EmailSource}

/-- The emails leave the rules and the sources alone. -/
theorem world_of_pollMails (intake : Intake σ) (st : PollState σ) (ds : List Delivery) :
    (leaves (ds.foldlM (pollMail intake) st)).world.rules = st.world.rules ∧
      (leaves (ds.foldlM (pollMail intake) st)).world.sources = st.world.sources := by
  refine leaves_foldlM (P := fun s : PollState σ =>
    s.world.rules = st.world.rules ∧ s.world.sources = st.world.sources) (fun s d _ h => ?_)
    ⟨rfl, rfl⟩
  unfold pollMail
  split_ifs
  · exact h
  · exact h
  · exact h

variable (env intake st item) in
/-- A source is stamped, or none is. -/
theorem sources_of_pollSource :
    (leaves (pollSource env intake st item)).world.sources = st.world.sources ∨ ∃ result,
      (leaves (pollSource env intake st item)).world.sources =
        syncSource env result item.2 item.1.id st.world.sources := by
  unfold pollSource
  cases fetchFrom env st.world.store.emails item with
  | none => exact .inl rfl
  | some result =>
    dsimp only
    unfold pollFetched
    have hsources := (world_of_pollMails intake
      { st with stats := { st.stats with rules := st.stats.rules + item.2.length } }
      (deliveriesOf result item)).2
    cases hpolled : (deliveriesOf result item).foldlM (pollMail intake)
        { st with stats := { st.stats with rules := st.stats.rules + item.2.length } } with
    | error st' =>
      rw [hpolled] at hsources
      exact .inl hsources
    | ok st' =>
      rw [hpolled] at hsources
      exact .inr ⟨result, congrArg (syncSource env result item.2 item.1.id) hsources⟩

/-- What the poll of an item makes of a source. -/
theorem mem_pollSource (h : source ∈ (leaves (pollSource env intake st item)).world.sources) :
    source ∈ st.world.sources ∨ ∃ old ∈ st.world.sources, old.id = item.1.id ∧
      source.id = old.id ∧ ∃ fetchOk : Bool,
        source.lastSyncedAt = (if fetchOk then some (env.syncedAt item.1.id)
          else old.lastSyncedAt) ∧
        source.casLastPolledAt = if fetchOk && item.2.any (·.autoManaged) then
          some (env.casPolledAt item.1.id) else old.casLastPolledAt := by
  rcases sources_of_pollSource intake env st item with heq | ⟨result, heq⟩
  · rw [heq] at h
    exact .inl h
  · rw [heq] at h
    obtain ⟨old, hold, ⟨hid, rfl⟩ | ⟨-, rfl⟩⟩ := Table.mem_update.mp h
    · exact .inr ⟨old, hold, of_decide_eq_true hid, rfl, result.fetchOk, rfl, rfl⟩
    · exact .inl hold

/-- The stamp of a source is as it was, or it was off cooldown and has a new one. -/
def StampedOff (now : Int) (env : PollEnv) (sources : Table sourceSchema) (source : EmailSource) :
    Prop :=
  ∃ old ∈ sources, old.id = source.id ∧ (source.casLastPolledAt = old.casLastPolledAt ∨
    onCooldown now old = false ∧ source.casLastPolledAt = some (env.casPolledAt old.id))

/-- A source with an automatic rule that is polled is off cooldown. -/
theorem offCooldown_of_auto {rules rules' : Table ruleSchema} {sources : Table sourceSchema}
    (hmanaged : Managed rules)
    (h : ensureCasFetchRules settings now rules sources = some rules')
    (hitem : item ∈ (rulesBySource rules' sources).items)
    (hauto : item.2.any (·.autoManaged) = true) : onCooldown now item.1 = false := by
  cases hon : settings.on with
  | true =>
    rw [any_autoManaged_iff hmanaged hon h hitem] at hauto
    rwa [Bool.not_eq_true'] at hauto
  | false =>
    rw [any_autoManaged_of_off hon h hitem] at hauto
    cases hauto

theorem stampedOff_pollSource {sources : Table sourceSchema} (hmem : item.1 ∈ sources)
    (hoff : item.2.any (·.autoManaged) = true → onCooldown now item.1 = false)
    (hst : ∀ s ∈ st.world.sources, StampedOff now env sources s) :
    ∀ s ∈ (leaves (pollSource env intake st item)).world.sources,
      StampedOff now env sources s := by
  intro s hs
  rcases mem_pollSource hs with hs | ⟨old, hold, hat, hid, fetchOk, -, hcas⟩
  · exact hst s hs
  · split_ifs at hcas with hauto
    · exact ⟨item.1, hmem, (hid.trans hat).symm,
        .inr ⟨hoff (Bool.and_eq_true_iff.mp hauto).2, hcas⟩⟩
    · obtain ⟨first, hfirst, hfirstId, hstamp⟩ := hst old hold
      rw [← hcas] at hstamp
      exact ⟨first, hfirst, hfirstId.trans hid.symm, hstamp⟩

/-- **A poll leaves a source on cooldown alone.** -/
theorem stampedOff_pollAll (hmanaged : Managed world.rules) :
    ∀ s ∈ (leaves (pollAll settings now env intake world)).world.sources,
      StampedOff now env world.sources s := by
  obtain ⟨rules', hrules⟩ :=
    exists_ensureCasFetchRules settings now world.rules world.sources
  unfold pollAll
  rw [hrules]
  refine leaves_foldlM
    (P := fun st : PollState σ => ∀ s ∈ st.world.sources, StampedOff now env world.sources s)
    (fun st item hitem hst => ?_) fun s hs => ⟨s, hs, rfl, .inl rfl⟩
  exact stampedOff_pollSource (source_of_mem_rulesBySource hitem).1
    (offCooldown_of_auto hmanaged hrules hitem) hst

/-! ### The search after a cooldown -/

/-- The last sync is a day and a half after the last poll for statements, at most. -/
def Covered (source : EmailSource) : Prop :=
  ∀ last, source.casLastPolledAt = some last →
    ∃ synced, source.lastSyncedAt = some synced ∧ synced ≤ last + hours 36

/-- Statements are on, the clock does not go back, and the poll takes half a day at most. -/
structure Punctual (settings : CasSettings) (now : Int) (env : PollEnv) : Prop where
  on : settings.on = true
  started : ∀ id, now ≤ env.syncedAt id
  stamped : ∀ id, env.syncedAt id ≤ env.casPolledAt id
  brief : ∀ id, env.casPolledAt id ≤ now + hours 12

theorem Punctual.covered_pollSource (hpunctual : Punctual settings now env)
    {sources : Table sourceSchema} (hmem : item.1 ∈ sources)
    (hcooldown : item.2.any (·.autoManaged) = !onCooldown now item.1)
    (hoff : ∀ s ∈ st.world.sources, StampedOff now env sources s)
    (hst : ∀ s ∈ st.world.sources, Covered s) :
    ∀ s ∈ (leaves (pollSource env intake st item)).world.sources, Covered s := by
  intro s hs last hlast
  have hstarted := hpunctual.started item.1.id
  have hstamped := hpunctual.stamped item.1.id
  have hbrief := hpunctual.brief item.1.id
  rcases mem_pollSource hs with hs | ⟨old, hold, hat, hid, fetchOk, hsynced, hcas⟩
  · exact hst s hs last hlast
  cases fetchOk with
  | false =>
    rw [hcas] at hlast
    rw [hsynced]
    exact hst old hold last hlast
  | true =>
    rw [if_pos rfl] at hsynced
    refine ⟨_, hsynced, ?_⟩
    rw [Bool.true_and, hcooldown] at hcas
    rw [hcas] at hlast
    have hhours : hours 12 + hours 24 = hours 36 := by decide
    have hpos : 0 ≤ hours 36 := by decide
    split_ifs at hlast with hfree
    · obtain rfl := Option.some.inj hlast
      omega
    · -- on cooldown: only the sync has moved on
      rw [Bool.not_eq_true', Bool.not_eq_false] at hfree
      obtain ⟨first, hfirst, hfirstId, hstamp⟩ := hoff old hold
      obtain rfl : first = item.1 := Table.eq_of_id_eq hfirst hmem (hfirstId.trans hat)
      rcases hstamp with hsame | ⟨hnot, -⟩
      · unfold onCooldown at hfree
        rw [← hsame, hlast, Option.any_some, decide_eq_true_eq] at hfree
        unfold casCooldown at hfree
        omega
      · rw [hfree] at hnot
        cases hnot

theorem Punctual.covered_pollAll (hpunctual : Punctual settings now env)
    (hmanaged : Managed world.rules) (hcovered : ∀ s ∈ world.sources, Covered s) :
    ∀ s ∈ (leaves (pollAll settings now env intake world)).world.sources, Covered s := by
  obtain ⟨rules', hrules⟩ :=
    exists_ensureCasFetchRules settings now world.rules world.sources
  unfold pollAll
  rw [hrules]
  refine (leaves_foldlM (P := fun st : PollState σ =>
      (∀ s ∈ st.world.sources, StampedOff now env world.sources s) ∧
        ∀ s ∈ st.world.sources, Covered s)
    (fun st item hitem hst => ⟨?_, ?_⟩) ⟨fun s hs => ⟨s, hs, rfl, .inl rfl⟩, hcovered⟩).2
  · exact stampedOff_pollSource (source_of_mem_rulesBySource hitem).1
      (offCooldown_of_auto hmanaged hrules hitem) hst.1
  · exact hpunctual.covered_pollSource (source_of_mem_rulesBySource hitem).1
      (any_autoManaged_iff hmanaged hpunctual.on hrules hitem) hst.1 hst.2

theorem managed_pollSource (hmanaged : Managed st.world.rules) :
    Managed (leaves (pollSource env intake st item)).world.rules := by
  unfold pollSource
  cases fetchFrom env st.world.store.emails item with
  | none => exact hmanaged
  | some result =>
    dsimp only
    unfold pollFetched
    have hrules := (world_of_pollMails intake
      { st with stats := { st.stats with rules := st.stats.rules + item.2.length } }
      (deliveriesOf result item)).1
    cases hpolled : (deliveriesOf result item).foldlM (pollMail intake)
        { st with stats := { st.stats with rules := st.stats.rules + item.2.length } } with
    | error st' =>
      rw [hpolled] at hrules
      exact hrules.symm ▸ hmanaged
    | ok st' =>
      rw [hpolled] at hrules
      intro changed hchanged hauto
      obtain ⟨rule, hrule, ⟨-, rfl⟩ | ⟨-, rfl⟩⟩ := Table.mem_update.mp hchanged
      · exact hmanaged rule (hrules ▸ hrule) hauto
      · exact hmanaged _ (hrules ▸ hrule) hauto

theorem managed_pollAll (hmanaged : Managed world.rules) :
    Managed (leaves (pollAll settings now env intake world)).world.rules := by
  obtain ⟨rules', hrules⟩ :=
    exists_ensureCasFetchRules settings now world.rules world.sources
  unfold pollAll
  rw [hrules]
  exact leaves_foldlM (P := fun st : PollState σ => Managed st.world.rules)
    (fun st item _ hst => managed_pollSource hst) (managed_ensureCasFetchRules hmanaged hrules)

end Stamps

/-! ### Poll after poll -/

inductive CasEvent (σ : Type)
  | poll (settings : CasSettings) (now : Int) (env : PollEnv)
  /-- Whatever else the program does. -/
  | change (world : World σ)

section Runs

variable {σ : Type}

def casPolls (intake : Intake σ) : Transition.System (World σ) (CasEvent σ) where
  step world
    | .poll settings now env => some (leaves (pollAll settings now env intake world)).world
    | .change world' => some world'

/-- The polls are punctual, and nobody else writes the stamps or makes automatic rules. -/
def KeepsTime (world : World σ) : CasEvent σ → Prop
  | .poll settings now env => Punctual settings now env
  | .change world' => Managed world'.rules ∧ ∀ s' ∈ world'.sources, s'.casLastPolledAt = none ∨
      ∃ s ∈ world.sources, s'.casLastPolledAt = s.casLastPolledAt ∧
        s'.lastSyncedAt = s.lastSyncedAt

/-- **The pause between two polls for statements loses none**: whenever a source was polled for
them, it is left alone for a day, and the next search starts before that poll began. -/
theorem cas_no_gap {intake : Intake σ} {world t : World σ} (hmanaged : Managed world.rules)
    (hcovered : ∀ source ∈ world.sources, Covered source)
    (h : (casPolls intake).Run KeepsTime world t) :
    (∀ settings now env, ∀ source ∈ (leaves (pollAll settings now env intake t)).world.sources,
      StampedOff now env t.sources source) ∧
    ∀ source ∈ t.sources, ∀ last, source.casLastPolledAt = some last →
      ∀ rule : FetchRule, rule.needsBackfill = false → ∀ now,
        (searchCriteria now source.lastSyncedAt rule).since ≤ dateOf (last - hours 12) ∧
        ∀ mailboxId, (jmapFilter now source.lastSyncedAt rule mailboxId).after ≤
          dateOf (last - hours 12) := by
  have hinv : Managed t.rules ∧ ∀ source ∈ t.sources, Covered source := by
    refine h.invariant (I := fun w => Managed w.rules ∧ ∀ source ∈ w.sources, Covered source)
      (fun w e w' hw hok hstep => ?_) ⟨hmanaged, hcovered⟩
    cases e with
    | poll settings now env =>
      obtain rfl := Option.some.inj hstep
      exact ⟨managed_pollAll hw.1, Punctual.covered_pollAll hok hw.1 hw.2⟩
    | change world' =>
      obtain rfl := Option.some.inj hstep
      refine ⟨hok.1, fun s' hs' last hlast => ?_⟩
      rcases hok.2 s' hs' with hnone | ⟨s, hs, hcas, hsynced⟩
      · rw [hnone] at hlast
        cases hlast
      · rw [hsynced]
        exact hw.2 s hs last (hcas ▸ hlast)
  refine ⟨fun settings now env => stampedOff_pollAll hinv.1, ?_⟩
  intro source hsource last hlast rule hdone now
  obtain ⟨synced, hsynced, hlate⟩ := hinv.2 source hsource last hlast
  have hback : synced - days 2 ≤ last - hours 12 := by
    have hdays : days 2 = hours 36 + hours 12 := by decide
    omega
  have hsince : dateOf (synced - days 2) ≤ dateOf (last - hours 12) := dateOf_mono hback
  unfold searchCriteria jmapFilter imapSinceDate
  rw [hdone, hsynced]
  exact ⟨hsince, fun _ => hsince⟩

end Runs

/-- A source, and no rule. -/
def casWorld : World Unit where
  rules := .empty
  sources := letterWorld.sources
  store := ⟨.empty, .empty, ()⟩

def casOn : CasSettings := ⟨true, "ABCDE1234F"⟩

omit [UnicodeTables] in
/-- The first poll makes the rules and asks for statements; the next search starts before it. -/
theorem cas_no_gap_firstPoll : ∃ t : World Unit,
    (@casPolls asciiTables Unit letterIntake).Run (@KeepsTime asciiTables Unit) casWorld t ∧
    (t.sources.rows.map (·.casLastPolledAt)) = [some 0] ∧
    ∀ source ∈ t.sources, ∀ last, source.casLastPolledAt = some last →
      (searchCriteria 0 source.lastSyncedAt { openRule with initialBackfillDoneAt := some 0 }).since ≤
        dateOf (last - hours 12) := by
  let _ := asciiTables
  have hpunctual : Punctual casOn 0 letterEnv :=
    ⟨by decide +kernel, fun _ => le_refl 0, fun _ => le_refl 0,
      fun _ => (by decide : (0 : Int) ≤ 0 + hours 12)⟩
  obtain ⟨t, ht, hrun⟩ : ∃ t, t = (leaves (pollAll casOn 0 letterEnv letterIntake casWorld)).world ∧
      (casPolls letterIntake).Run KeepsTime casWorld t :=
    ⟨_, rfl, .tail (e := .poll casOn 0 letterEnv) (.refl _) hpunctual rfl⟩
  refine ⟨t, hrun, ?_, fun source hsource last hlast => ?_⟩
  · rw [ht]
    decide +kernel
  · refine ((cas_no_gap (fun rule hrule => absurd hrule List.not_mem_nil) ?_ hrun).2 source hsource
      last hlast _ rfl 0).1
    intro source hsource last hlast
    rw [List.mem_singleton.mp hsource] at hlast
    cases hlast

end FinancialDashboard.Mail
