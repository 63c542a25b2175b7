import FinancialDashboard.Lib.Posting
import FinancialDashboard.Lib.PyTime
import FinancialDashboard.Mail.Rules

/-!
# The Fastmail fetch

`_fetch_fastmail_source_sync` of `integrations/email/jmap_fastmail.py`, against a server that
holds the messages a search finds, newest first, and may leave any request unanswered.  Each
rule reads its search page by page until the limit is full; what is not stored is downloaded;
the first request that raises ends the fetch, and then no backfill is complete.

* `queryFrom_eq`: the pages together are the search.
* `mem_readPage`: what is read is what the rule wants, up to the limit.
* `fastmail_losesNothing_iff`: when a rule that is ready has lost something.
-/

namespace FinancialDashboard.Mail

open PyText PyTime

/-! ### The server -/

structure JmapEmail where
  id : String
  blobId : String
  /-- `from` -/
  sender : Option (List JmapAddress)
  subject : Option String
  mailboxIds : List String

structure JmapFilter where
  inMailbox : Option String
  sender : Option String
  subject : Option String
  after : Int
  deriving DecidableEq

structure JmapServer where
  session : Bool
  /-- Ids and names of the mailboxes that a query by name finds. -/
  mailboxes : String → Option (List (String × String))
  emails : JmapFilter → List JmapEmail
  /-- The request for the page at a position is answered. -/
  answers : JmapFilter → Nat → Bool
  blob : String → Option (List UInt8)

variable [UnicodeTables]

/-- `_resolve_mailbox_id`: by the name as it is, then by the name in lower case. -/
def findMailbox (folder : String) (mailboxes : List (String × String)) : Option String :=
  (mailboxes.find? (·.2 = folder) <|>
    mailboxes.find? fun mb => lower mb.2 = lower folder).map Prod.fst

/-- The mailbox to search in; `refused` where the folder is not found. -/
def mailboxOf (server : JmapServer) (rule : FetchRule) : Reply (Option String) :=
  match rule.folder.filter (· ≠ "") with
  | none => .ok none
  | some folder =>
    match server.mailboxes folder with
    | none => .raised
    | some mailboxes =>
      match findMailbox folder mailboxes with
      | some id => .ok (some id)
      | none => .refused

omit [UnicodeTables] in
def jmapFilter (now : Int) (lastSyncedAt : Option Int) (rule : FetchRule)
    (mailboxId : Option String) : JmapFilter where
  inMailbox := mailboxId
  sender := rule.sender.filter (· ≠ "")
  subject := rule.subject.filter (· ≠ "")
  after :=
    if rule.needsBackfill then dateOf (now - days initialBackfillDays)
    else
      match lastSyncedAt with
      | none => dateOf (now - days initialBackfillDays)
      | some lastSyncedAt => dateOf (lastSyncedAt - days 2)

/-! ### Reading a search -/

section Reading

omit [UnicodeTables]

variable (accepts : JmapEmail → Bool) (fetchLimit : Int)

/-- The limit is full. -/
def full (taken : List JmapEmail) : Bool := 0 < fetchLimit && fetchLimit ≤ taken.length

/-- The loop over the messages of a page. -/
def readPage (taken : List JmapEmail) : List JmapEmail → List JmapEmail
  | [] => taken
  | em :: rest =>
    if full fetchLimit taken then taken
    else if accepts em then readPage (taken ++ [em]) rest
    else readPage taken rest

/-- `max(fetch_limit, 50)`. -/
def pageSize : Nat := max fetchLimit.toNat 50

/-- The loop over the pages, from a position on. -/
def queryFrom (emails : List JmapEmail) (answers : Nat → Bool) (position : Nat)
    (taken : List JmapEmail) : Option (List JmapEmail) :=
  if full fetchLimit taken then some taken
  else if !answers position then none
  else
    let page := (emails.drop position).take (pageSize fetchLimit)
    if page.length = 0 then some taken
    else
      let taken := readPage accepts fetchLimit taken page
      if page.length < pageSize fetchLimit then some taken
      else queryFrom emails answers (position + page.length) taken
  termination_by emails.length - position
  decreasing_by
    simp only [page, List.length_take, List.length_drop] at *
    omega

end Reading

section Fetch

variable (server : JmapServer) (now : Int) (lastSyncedAt : Option Int)
  (address : String → String) (sourceId : Nat) (fetchLimit : Int)

/-- The mailbox and the filter of the rule, on a message that a search found. -/
def acceptsEmail (rule : FetchRule) (mailboxId : Option String) (em : JmapEmail) : Bool :=
  mailboxId.all (· ∈ em.mailboxIds) &&
    matchesRuleFilters address rule (some (formatJmapFromField em.sender)) em.subject

/-- `rule_candidates[rule.id]`. -/
def candidatesOf (rule : FetchRule) : Option (List JmapEmail) :=
  match mailboxOf server rule with
  | .raised => none
  | .refused => some []
  | .ok mailboxId =>
    let filter := jmapFilter now lastSyncedAt rule mailboxId
    queryFrom (acceptsEmail address rule mailboxId) fetchLimit (server.emails filter)
      (server.answers filter) 0 []

def ruleCandidates (rules : List FetchRule) : Option (List (FetchRule × List JmapEmail)) :=
  rules.mapM fun rule =>
    (candidatesOf server now lastSyncedAt address fetchLimit rule).map (rule, ·)

omit [UnicodeTables] in
/-- The downloads up to the first that raises, and that none did. -/
def download : List (FetchRule × JmapEmail) → List (Nat × FetchedEmail) × Bool
  | [] => ([], true)
  | (rule, em) :: rest =>
    match server.blob em.blobId with
    | none => ([], false)
    | some raw =>
      let later := download rest
      ((rule.id, ⟨messageIdOf sourceId "fastmail" em.id, em.id, raw⟩) :: later.1, later.2)

omit [UnicodeTables] in
/-- The candidates that are not stored. -/
def pending (existing : List String) (candidates : List (FetchRule × List JmapEmail)) :
    List (FetchRule × JmapEmail) :=
  candidates.flatMap fun c => (c.2.filter (·.id ∉ existing)).map (c.1, ·)

def fetchFastmailSource (token : Bool) (existing : List String) (rules : List FetchRule) :
    FetchSourceResult :=
  let failed : FetchSourceResult := ⟨fun _ => [], false, []⟩
  if !token || !server.session then failed
  else
    match ruleCandidates server now lastSyncedAt address fetchLimit rules with
    | none => failed
    | some candidates =>
      let downloaded := download server sourceId (pending existing candidates)
      let results := fun id => (downloaded.1.filter (·.1 = id)).map Prod.snd
      if downloaded.2 then
        ⟨results, true,
          (candidates.filter fun c =>
            c.1.needsBackfill && (results c.1.id ≠ [] || c.2.length = 0)).map (·.1.id)⟩
      else ⟨results, false, []⟩

end Fetch

/-! ### What is read -/

section Read

omit [UnicodeTables]

variable {accepts : JmapEmail → Bool} {fetchLimit : Int} {taken l emails : List JmapEmail}
  {em : JmapEmail}

theorem readPage_cons : readPage accepts fetchLimit taken (em :: l) =
    if full fetchLimit taken then taken
    else if accepts em then readPage accepts fetchLimit (taken ++ [em]) l
    else readPage accepts fetchLimit taken l :=
  rfl

theorem readPage_of_full (h : full fetchLimit taken = true) :
    readPage accepts fetchLimit taken l = taken := by
  cases l with
  | nil => rfl
  | cons em l => exact if_pos h

theorem readPage_append (a b : List JmapEmail) :
    readPage accepts fetchLimit taken (a ++ b) =
      readPage accepts fetchLimit (readPage accepts fetchLimit taken a) b := by
  induction a generalizing taken with
  | nil => rfl
  | cons em a ih =>
    rw [List.cons_append, readPage_cons, readPage_cons]
    split_ifs with hfull haccepts
    · exact (readPage_of_full hfull).symm
    · exact ih
    · exact ih

/-- **The pages together are the search.** -/
theorem queryFrom_eq {answers : Nat → Bool} {position : Nat} {result : List JmapEmail}
    (h : queryFrom accepts fetchLimit emails answers position taken = some result) :
    result = readPage accepts fetchLimit taken (emails.drop position) := by
  fun_induction queryFrom accepts fetchLimit emails answers position taken with
  | case1 position taken hfull =>
    rw [readPage_of_full hfull]
    exact (Option.some.inj h).symm
  | case2 position taken hfull hanswers => cases h
  | case3 position taken hfull hanswers page hempty =>
    have hnil : emails.drop position = [] := by
      have hlength : ((emails.drop position).take (pageSize fetchLimit)).length = 0 := hempty
      rw [List.length_take] at hlength
      unfold pageSize at hlength
      exact List.length_eq_zero_iff.mp (by omega)
    rw [hnil]
    exact (Option.some.inj h).symm
  | case4 position taken hfull hanswers page hempty next hshort =>
    have hall : page = emails.drop position := by
      refine List.take_of_length_le ?_
      have hlength : ((emails.drop position).take (pageSize fetchLimit)).length <
        pageSize fetchLimit := hshort
      rw [List.length_take] at hlength
      omega
    rw [← hall]
    exact (Option.some.inj h).symm
  | case5 position taken hfull hanswers page hempty next hshort ih =>
    rw [ih h, ← List.drop_drop, ← readPage_append]
    have hlength : page.length = pageSize fetchLimit :=
      Nat.le_antisymm (List.length_take_le _ _) (Nat.not_lt.mp hshort)
    rw [hlength]
    exact congrArg _ (List.take_append_drop (pageSize fetchLimit) (emails.drop position))

/-- **What is read is what the rule wants, up to the limit.** -/
theorem readPage_eq : readPage accepts fetchLimit taken l =
    taken ++ if 0 < fetchLimit then (l.filter accepts).take (fetchLimit - taken.length).toNat
      else l.filter accepts := by
  induction l generalizing taken with
  | nil => simp [readPage]
  | cons em l ih =>
    rw [readPage_cons]
    by_cases hfull : full fetchLimit taken = true
    · rw [if_pos hfull]
      simp only [full, Bool.and_eq_true, decide_eq_true_eq] at hfull
      rw [if_pos hfull.1, Int.toNat_of_nonpos (by omega)]
      simp
    · rw [if_neg hfull]
      simp only [full, Bool.and_eq_true, decide_eq_true_eq, not_and, not_le] at hfull
      cases haccepts : accepts em with
      | true =>
        rw [if_pos rfl, ih, List.filter_cons_of_pos haccepts]
        by_cases hlimit : 0 < fetchLimit
        · rw [if_pos hlimit, if_pos hlimit]
          have hroom := hfull hlimit
          obtain ⟨n, hn⟩ : ∃ n, (fetchLimit - taken.length).toNat = n + 1 :=
            ⟨(fetchLimit - taken.length).toNat - 1, by omega⟩
          have hn' : (fetchLimit - (taken ++ [em]).length).toNat = n := by
            rw [List.length_append, List.length_singleton]
            omega
          rw [hn, hn', List.take_succ_cons, List.append_assoc]
          rfl
        · rw [if_neg hlimit, if_neg hlimit, List.append_assoc]
          rfl
      | false =>
        rw [if_neg Bool.false_ne_true, ih, List.filter_cons_of_neg (by simp [haccepts])]

/-- The limit is full before the message at a position. -/
def CutOffAt (accepts : JmapEmail → Bool) (fetchLimit : Int) (emails : List JmapEmail) (i : Nat) :
    Prop :=
  0 < fetchLimit ∧ fetchLimit ≤ (emails.take i).countP accepts

/-- A message that is wanted and not cut off is read. -/
theorem mem_readPage {i : Nat} (hem : emails[i]? = some em) (haccepts : accepts em = true)
    (hcut : ¬ CutOffAt accepts fetchLimit emails i) :
    em ∈ readPage accepts fetchLimit [] emails := by
  have hmem : em ∈ (emails.take (i + 1)).filter accepts := by
    refine List.mem_filter.mpr ⟨List.mem_of_getElem? (i := i) ?_, haccepts⟩
    rw [List.getElem?_take_of_succ, hem]
  rw [readPage_eq, List.nil_append]
  split_ifs with hlimit
  · have hcount : ((emails.take (i + 1)).filter accepts).length ≤
        (fetchLimit - ([] : List JmapEmail).length).toNat := by
      have hroom : ¬ fetchLimit ≤ (emails.take i).countP accepts := fun h => hcut ⟨hlimit, h⟩
      have hstep : (emails.take (i + 1)).countP accepts ≤ (emails.take i).countP accepts + 1 := by
        rw [List.take_add_one, List.countP_append]
        have := List.countP_le_length (p := accepts) (l := emails[i]?.toList)
        rw [hem] at this ⊢
        simpa using this
      rw [← List.countP_eq_length_filter, List.length_nil]
      omega
    have hleading : (emails.take (i + 1)).filter accepts <+: emails.filter accepts :=
      (List.take_prefix _ _).filter accepts
    exact (List.prefix_take_iff.mpr ⟨hleading, hcount⟩).subset hmem
  · exact ((List.take_sublist _ _).filter accepts).subset hmem

end Read

/-! ### What is handed over -/

section Backfill

variable {server : JmapServer} {now : Int} {lastSyncedAt : Option Int}
  {address : String → String} {sourceId : Nat} {fetchLimit : Int} {token : Bool}
  {existing : List String} {rules : RuleSet} {rule : FetchRule}
  {candidates : List (FetchRule × List JmapEmail)} {l : List JmapEmail} {em : JmapEmail} {id : Nat}

omit [UnicodeTables] in
theorem download_completes_iff {items : List (FetchRule × JmapEmail)} :
    (download server sourceId items).2 = true ↔ ∀ i ∈ items, server.blob i.2.blobId ≠ none := by
  induction items with
  | nil => exact iff_of_true rfl nofun
  | cons i items ih =>
    rw [List.forall_mem_cons]
    unfold download
    cases hblob : server.blob i.2.blobId with
    | none => exact iff_of_false nofun fun h => h.1 rfl
    | some raw => exact ih.trans (iff_and_self.mpr fun _ => nofun)

omit [UnicodeTables] in
/-- A download that completes has everything. -/
theorem mem_download (sourceId : Nat) {items : List (FetchRule × JmapEmail)}
    (h : ∀ i ∈ items, server.blob i.2.blobId ≠ none) {remoteId : String} :
    (∃ e, (id, e) ∈ (download server sourceId items).1 ∧ e.remoteId = remoteId) ↔
      ∃ i ∈ items, i.1.id = id ∧ i.2.id = remoteId := by
  induction items with
  | nil => simp [download]
  | cons i items ih =>
    obtain ⟨hi, hrest⟩ := List.forall_mem_cons.mp h
    have ih := ih hrest
    obtain ⟨raw, hraw⟩ := Option.ne_none_iff_exists'.mp hi
    unfold download
    rw [hraw, List.exists_mem_cons_iff, ← ih]
    dsimp only
    constructor
    · rintro ⟨e, he, hid⟩
      rcases List.mem_cons.mp he with he | he
      · obtain ⟨rfl, rfl⟩ := Prod.mk.inj he
        exact .inl ⟨rfl, hid⟩
      · exact .inr ⟨e, he, hid⟩
    · rintro (⟨hrule, hid⟩ | ⟨e, he, hid⟩)
      · exact ⟨_, List.mem_cons.mpr (.inl (by rw [← hrule])), hid⟩
      · exact ⟨e, List.mem_cons_of_mem _ he, hid⟩

omit [UnicodeTables] in
theorem mem_pending : (rule, em) ∈ pending existing candidates ↔
    ∃ l, (rule, l) ∈ candidates ∧ em ∈ l ∧ em.id ∉ existing := by
  unfold pending
  simp only [List.mem_flatMap, List.mem_map, List.mem_filter, decide_eq_true_eq]
  constructor
  · rintro ⟨c, hc, m, ⟨hm, hnew⟩, heq⟩
    obtain ⟨rfl, rfl⟩ := Prod.mk.inj heq
    exact ⟨c.2, hc, hm, hnew⟩
  · rintro ⟨l, hc, hm, hnew⟩
    exact ⟨(rule, l), hc, em, ⟨hm, hnew⟩, rfl⟩

/-- The candidates of the rules, rule after rule. -/
theorem ruleCandidates_spec {rules : List FetchRule}
    (h : ruleCandidates server now lastSyncedAt address fetchLimit rules = some candidates) :
    List.Forall₂ (fun rule c => c.1 = rule ∧
      candidatesOf server now lastSyncedAt address fetchLimit rule = some c.2) rules candidates := by
  unfold ruleCandidates at h
  induction rules generalizing candidates with
  | nil =>
    obtain rfl : [] = candidates := Option.some.inj h
    exact .nil
  | cons first rules ih =>
    rw [List.mapM_cons] at h
    obtain ⟨c, hc, hrest⟩ := Option.bind_eq_some_iff.mp h
    obtain ⟨later, hlater, heq⟩ := Option.bind_eq_some_iff.mp hrest
    obtain rfl := Option.some.inj heq
    obtain ⟨own, hown, rfl⟩ := Option.map_eq_some_iff.mp hc
    exact .cons ⟨rfl, hown⟩ (ih hlater)

/-- The candidates are those of each rule. -/
theorem mem_ruleCandidates {rules : List FetchRule}
    (h : ruleCandidates server now lastSyncedAt address fetchLimit rules = some candidates) :
    (rule, l) ∈ candidates ↔
      rule ∈ rules ∧ candidatesOf server now lastSyncedAt address fetchLimit rule = some l := by
  constructor
  · intro hmem
    obtain ⟨own, hrule, rfl, hl⟩ := Posting.exists_left (ruleCandidates_spec h) hmem
    exact ⟨hrule, hl⟩
  · rintro ⟨hrule, hl⟩
    obtain ⟨⟨own, l'⟩, hmem, rfl, hl'⟩ := Posting.exists_right (ruleCandidates_spec h) hrule
    rwa [Option.some.inj (hl.symm.trans hl')]

theorem exists_candidates {rules : List FetchRule}
    (h : ruleCandidates server now lastSyncedAt address fetchLimit rules = some candidates)
    (hrule : rule ∈ rules) : ∃ l, (rule, l) ∈ candidates := by
  obtain ⟨⟨own, l⟩, hmem, rfl, -⟩ := Posting.exists_right (ruleCandidates_spec h) hrule
  exact ⟨l, hmem⟩

/-- The candidates of a rule whose search was made. -/
theorem candidatesOf_eq {mailboxId : Option String}
    (hmailbox : mailboxOf server rule = .ok mailboxId)
    (h : candidatesOf server now lastSyncedAt address fetchLimit rule = some l) :
    l = readPage (acceptsEmail address rule mailboxId) fetchLimit []
      (server.emails (jmapFilter now lastSyncedAt rule mailboxId)) := by
  unfold candidatesOf at h
  rw [hmailbox] at h
  exact queryFrom_eq h

/-! ### When something is lost -/

variable (server now lastSyncedAt address sourceId fetchLimit token existing rules)

/-- The Fastmail fetch, as far as the initial backfill goes; a message is looked at by its
place in the search. -/
def fastmailBackfill : Backfill (Nat × JmapEmail) where
  result := fetchFastmailSource server now lastSyncedAt address sourceId fetchLimit token existing
    rules.rules
  Found rule m := ∃ mailboxId, mailboxOf server rule = .ok mailboxId ∧
    (server.emails (jmapFilter now lastSyncedAt rule mailboxId))[m.1]? = some m.2
  Accepts rule m := ∃ mailboxId, mailboxOf server rule = .ok mailboxId ∧
    acceptsEmail address rule mailboxId m.2 = true
  remoteId m := m.2.id
  CutOff rule m := ∃ mailboxId, mailboxOf server rule = .ok mailboxId ∧
    CutOffAt (acceptsEmail address rule mailboxId) fetchLimit
      (server.emails (jmapFilter now lastSyncedAt rule mailboxId)) m.1
  Undelivered rule m := ∃ l,
    candidatesOf server now lastSyncedAt address fetchLimit rule = some l ∧ m.2 ∈ l ∧
      m.2.id ∉ existing ∧ server.blob m.2.blobId = none

/-- **A rule waits for its backfill, the limit cuts its search off, and of what is read
something is not stored**, in a session that answers every request. -/
def FastmailLoses : Prop :=
  token = true ∧ server.session = true ∧ ∃ candidates,
    ruleCandidates server now lastSyncedAt address fetchLimit rules.rules = some candidates ∧
    (∀ i ∈ pending existing candidates, server.blob i.2.blobId ≠ none) ∧
    ∃ rule ∈ rules, rule.needsBackfill = true ∧ ∃ mailboxId,
      mailboxOf server rule = .ok mailboxId ∧
      let emails := server.emails (jmapFilter now lastSyncedAt rule mailboxId)
      let accepts := acceptsEmail address rule mailboxId
      (∃ i < emails.length, CutOffAt accepts fetchLimit emails i) ∧
        ∃ em ∈ (emails.filter accepts).take fetchLimit.toNat, em.id ∉ existing

variable {server now lastSyncedAt address sourceId fetchLimit token existing rules}

theorem ready_eq_nil (h : token = false ∨ server.session = false ∨
    ruleCandidates server now lastSyncedAt address fetchLimit rules.rules = none) :
    (fetchFastmailSource server now lastSyncedAt address sourceId fetchLimit token existing
      rules.rules).backfillReadyRuleIds = [] := by
  unfold fetchFastmailSource
  dsimp only
  split_ifs with hsession
  · rfl
  · simp only [Bool.or_eq_true, Bool.not_eq_true', not_or, Bool.not_eq_false] at hsession
    rcases h with h | h | h
    · exact absurd (hsession.1.symm.trans h) Bool.noConfusion
    · exact absurd (hsession.2.symm.trans h) Bool.noConfusion
    · rw [h]

/-- The fetch from the candidates on. -/
theorem result_of_candidates (sourceId : Nat) (existing : List String) (htoken : token = true)
    (hsession : server.session = true)
    (h : ruleCandidates server now lastSyncedAt address fetchLimit rules.rules = some candidates) :
    let downloaded := download server sourceId (pending existing candidates)
    let results := fun id => (downloaded.1.filter (·.1 = id)).map Prod.snd
    fetchFastmailSource server now lastSyncedAt address sourceId fetchLimit token existing
        rules.rules =
      if downloaded.2 then
        ⟨results, true, (candidates.filter fun c =>
          c.1.needsBackfill && (results c.1.id ≠ [] || c.2.length = 0)).map (·.1.id)⟩
      else ⟨results, false, []⟩ := by
  unfold fetchFastmailSource
  simp only [htoken, hsession, h, Bool.not_true, Bool.or_false, Bool.false_eq_true, if_false]

theorem exists_fetched_iff (sourceId id : Nat) (remoteId : String) (htoken : token = true)
    (hsession : server.session = true)
    (h : ruleCandidates server now lastSyncedAt address fetchLimit rules.rules = some candidates)
    (hblobs : ∀ i ∈ pending existing candidates, server.blob i.2.blobId ≠ none) :
    (∃ e ∈ (fetchFastmailSource server now lastSyncedAt address sourceId fetchLimit token existing
        rules.rules).resultsByRule id, e.remoteId = remoteId) ↔
      ∃ i ∈ pending existing candidates, i.1.id = id ∧ i.2.id = remoteId := by
  have hresult := result_of_candidates sourceId existing htoken hsession h
  dsimp only at hresult
  rw [hresult, if_pos (download_completes_iff.mpr hblobs), ← mem_download sourceId
    hblobs]
  simp only [List.mem_map, List.mem_filter, decide_eq_true_eq]
  constructor
  · rintro ⟨e, ⟨d, ⟨hd, rfl⟩, rfl⟩, hid⟩
    exact ⟨d.2, hd, hid⟩
  · rintro ⟨e, he, hid⟩
    exact ⟨e, ⟨(id, e), ⟨he, rfl⟩, rfl⟩, hid⟩

/-- **A rule is ready that has something new, or no candidate.** -/
theorem mem_ready_iff (sourceId : Nat) (htoken : token = true) (hsession : server.session = true)
    (h : ruleCandidates server now lastSyncedAt address fetchLimit rules.rules = some candidates)
    (hblobs : ∀ i ∈ pending existing candidates, server.blob i.2.blobId ≠ none)
    (hrule : rule ∈ rules) (hmem : (rule, l) ∈ candidates) :
    rule.id ∈ (fetchFastmailSource server now lastSyncedAt address sourceId fetchLimit token
        existing rules.rules).backfillReadyRuleIds ↔
      rule.needsBackfill = true ∧ ((∃ em ∈ l, em.id ∉ existing) ∨ l = []) := by
  have hfetched := fun remoteId => exists_fetched_iff sourceId rule.id remoteId htoken hsession h
    hblobs
  have hresult := result_of_candidates sourceId existing htoken hsession h
  dsimp only at hresult
  rw [if_pos (download_completes_iff.mpr hblobs)] at hresult
  have hunique : ∀ c ∈ candidates, c.1.id = rule.id → c = (rule, l) := by
    intro c hc hid
    have hown := (mem_ruleCandidates h).mp hmem
    have hother := (mem_ruleCandidates h).mp (show (c.1, c.2) ∈ candidates from hc)
    obtain rfl := rules.eq_of_id hother.1 hrule hid
    exact Prod.ext rfl (Option.some.inj (hother.2.symm.trans hown.2))
  have hresults : (fetchFastmailSource server now lastSyncedAt address sourceId fetchLimit token
      existing rules.rules).resultsByRule rule.id ≠ [] ↔ ∃ em ∈ l, em.id ∉ existing := by
    constructor
    · intro hne
      obtain ⟨e, he⟩ := List.exists_mem_of_ne_nil _ hne
      obtain ⟨i, hi, hid, -⟩ := (hfetched e.remoteId).mp ⟨e, he, rfl⟩
      obtain ⟨l', hl', hem, hnew⟩ := mem_pending.mp hi
      obtain rfl : l' = l := congrArg Prod.snd (hunique _ hl' hid)
      exact ⟨i.2, hem, hnew⟩
    · rintro ⟨em, hem, hnew⟩
      obtain ⟨e, he, -⟩ := (hfetched em.id).mpr
        ⟨(rule, em), mem_pending.mpr ⟨l, hmem, hem, hnew⟩, rfl, rfl⟩
      exact List.ne_nil_of_mem he
  rw [hresult] at hresults ⊢
  simp only [List.mem_map, List.mem_filter, Bool.and_eq_true, Bool.or_eq_true, decide_eq_true_eq]
  constructor
  · rintro ⟨c, ⟨hc, hneeds, hready⟩, hid⟩
    obtain rfl := hunique c hc hid
    exact ⟨hneeds, hready.imp hresults.mp List.length_eq_zero_iff.mp⟩
  · rintro ⟨hneeds, hready⟩
    exact ⟨(rule, l), ⟨hmem, hneeds, hready.imp hresults.mpr List.length_eq_zero_iff.mpr⟩, rfl⟩

/-! ### Nothing lost -/

omit [UnicodeTables] in
/-- What is cut off leaves a full list behind. -/
theorem length_readPage_of_cutOff {accepts : JmapEmail → Bool} {emails : List JmapEmail} {i : Nat}
    (h : CutOffAt accepts fetchLimit emails i) :
    readPage accepts fetchLimit [] emails = (emails.filter accepts).take fetchLimit.toNat ∧
      readPage accepts fetchLimit [] emails ≠ [] := by
  obtain ⟨hpos, hcount⟩ := h
  have heq : readPage accepts fetchLimit [] emails =
      (emails.filter accepts).take fetchLimit.toNat := by
    rw [readPage_eq, if_pos hpos, List.nil_append, List.length_nil]
    simp
  refine ⟨heq, fun hnil => ?_⟩
  have hall : (emails.take i).countP accepts ≤ emails.countP accepts :=
    (List.take_sublist i emails).countP_le
  have hlength := congrArg List.length (heq.symm.trans hnil)
  rw [List.length_take, ← List.countP_eq_length_filter, List.length_nil] at hlength
  omega

/-- What the limit cuts off is lost once something new was read. -/
theorem not_fastmailLoses
    (h : (fastmailBackfill server now lastSyncedAt address sourceId fetchLimit token existing
      rules).LosesNothing rules existing) :
    ¬ FastmailLoses server now lastSyncedAt address fetchLimit token existing rules := by
  rintro ⟨htoken, hsession, candidates, hcandidates, hblobs, rule, hrule, hneeds, mailboxId,
    hmailbox, ⟨i, hi, hcut⟩, em, hem, hnew⟩
  obtain ⟨l, hl⟩ := exists_candidates hcandidates hrule
  have hread := candidatesOf_eq hmailbox ((mem_ruleCandidates hcandidates).mp hl).2
  have hmem : em ∈ l := by
    rw [hread, (length_readPage_of_cutOff hcut).1]
    exact hem
  have hready := (mem_ready_iff sourceId htoken hsession hcandidates hblobs hrule
    hl).mpr ⟨hneeds, .inl ⟨em, hmem, hnew⟩⟩
  obtain ⟨-, hkept, -⟩ := h rule hrule hneeds hready (i, _)
    ⟨mailboxId, hmailbox, List.getElem?_eq_getElem hi⟩
  exact hkept ⟨mailboxId, hmailbox, hcut⟩

/-- **The Fastmail fetch loses nothing but where the limit cuts off a rule that has read
something new.** -/
theorem fastmail_losesNothing_iff :
    (fastmailBackfill server now lastSyncedAt address sourceId fetchLimit token existing
        rules).LosesNothing rules existing ↔
      ¬ FastmailLoses server now lastSyncedAt address fetchLimit token existing rules := by
  refine ⟨not_fastmailLoses, fun hkept rule hrule hneeds hready m ⟨mailboxId, hmailbox, hm⟩ => ?_⟩
  have hready' : rule.id ∈ (fetchFastmailSource server now lastSyncedAt address sourceId fetchLimit
    token existing rules.rules).backfillReadyRuleIds := hready
  have hnil : token = false ∨ server.session = false ∨
      ruleCandidates server now lastSyncedAt address fetchLimit rules.rules = none →
      (fetchFastmailSource server now lastSyncedAt address sourceId fetchLimit token existing
        rules.rules).backfillReadyRuleIds = [] := ready_eq_nil
  have htoken : token = true := by
    by_contra h
    exact absurd (hnil (.inl (eq_false_of_ne_true h)) ▸ hready') List.not_mem_nil
  have hsession : server.session = true := by
    by_contra h
    exact absurd (hnil (.inr (.inl (eq_false_of_ne_true h))) ▸ hready') List.not_mem_nil
  obtain ⟨candidates, hcandidates⟩ := Option.ne_none_iff_exists'.mp fun h =>
    absurd (hnil (.inr (.inr h)) ▸ hready') List.not_mem_nil
  by_cases hblobs : ∀ i ∈ pending existing candidates, server.blob i.2.blobId ≠ none
  · obtain ⟨l, hl⟩ := exists_candidates hcandidates hrule
    have hown := (mem_ruleCandidates hcandidates).mp hl
    have hread := candidatesOf_eq hmailbox hown.2
    have hopen := (mem_ready_iff sourceId htoken hsession hcandidates hblobs hrule hl).mp hready'
    have hcut : ¬ CutOffAt (acceptsEmail address rule mailboxId) fetchLimit
        (server.emails (jmapFilter now lastSyncedAt rule mailboxId)) m.1 := by
      intro hcut
      obtain ⟨heq, hne⟩ := length_readPage_of_cutOff hcut
      obtain ⟨em, hem, hnew⟩ := hopen.2.resolve_right fun hnil => hne (hread.symm.trans hnil)
      have hlength : m.1 < (server.emails (jmapFilter now lastSyncedAt rule mailboxId)).length :=
        (List.getElem?_eq_some_iff.mp hm).1
      exact hkept ⟨htoken, hsession, candidates, hcandidates, hblobs, rule, hrule, hneeds,
        mailboxId, hmailbox, ⟨m.1, hlength, hcut⟩, em, heq ▸ hread ▸ hem, hnew⟩
    refine ⟨?_, ?_, ?_⟩
    · by_contra haccounted
      unfold Backfill.Accounted at haccounted
      push Not at haccounted
      obtain ⟨hfetched, hstored, mailboxId', hmailbox', haccepts⟩ := haccounted
      obtain rfl : mailboxId = mailboxId' := Reply.ok.inj (hmailbox.symm.trans hmailbox')
      have hmem : m.2 ∈ l := hread ▸ mem_readPage hm haccepts hcut
      obtain ⟨e, he, heq⟩ := (exists_fetched_iff sourceId rule.id m.2.id htoken
        hsession hcandidates hblobs).mpr
        ⟨(rule, m.2), mem_pending.mpr ⟨l, hl, hmem, hstored⟩, rfl, rfl⟩
      exact hfetched rule hrule e he heq
    · rintro ⟨mailboxId', hmailbox', hcut'⟩
      obtain rfl : mailboxId = mailboxId' := Reply.ok.inj (hmailbox.symm.trans hmailbox')
      exact hcut hcut'
    · rintro ⟨l', hl', hmem, hnew, hblob⟩
      obtain rfl : l = l' := Option.some.inj (hown.2.symm.trans hl')
      exact hblobs (rule, m.2) (mem_pending.mpr ⟨l, hl, hmem, hnew⟩) hblob
  · exfalso
    have hresult := result_of_candidates sourceId existing htoken hsession hcandidates
    dsimp only at hresult
    rw [hresult, if_neg (mt download_completes_iff.mp hblobs)] at hready'
    cases hready'

end Backfill

end FinancialDashboard.Mail
