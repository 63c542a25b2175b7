import FinancialDashboard.Lib.OrderedDict
import FinancialDashboard.Lib.PyTime
import FinancialDashboard.Mail.Rules

/-!
# The Gmail fetch

`_fetch_gmail_source_sync` of `integrations/email/imap_gmail.py`, against a server that holds
the messages and may refuse any command.  The searches of the rules are gathered under the
messages they find; a message in several folders is kept where it came first; what is
stored already is dropped, what is over the limit of the source is cut off, and the
rest is fetched one by one and given to each rule whose search found it there.

* `mem_found`: what is gathered is what the searches answered.
* `mem_newKeys`: what is new is what no earlier copy hides and no store has.
* `mem_ready_of_nil`, `mem_ready_of_new`: which rules' backfill is taken for complete.
* `gmail_losesNothing_iff`: when a rule that is ready has lost something.
-/

namespace FinancialDashboard.Mail

open PyText PyTime

/-! ### The server -/

/-- What IMAP and the email package tell of a message. -/
structure GmailMessage where
  /-- `X-GM-MSGID` -/
  gmailId : Option String
  /-- The stripped `Message-ID` header, which may be empty. -/
  messageId : String
  sender : String
  subject : String
  rawBytes : List UInt8

abbrev Folder := String

abbrev Uid := String

abbrev Key := Folder × Uid

/-- Where in the function a folder is selected. -/
inductive Phase
  | search (rule : Nat)
  | metadata
  | messages

structure SearchCriteria where
  sender : Option String
  subject : Option String
  since : Int
  deriving DecidableEq

structure ImapServer where
  login : Bool
  select : Phase → Folder → Reply Unit
  search : Folder → SearchCriteria → Reply (List Uid)
  /-- The messages of a batch whose headers come back; none where the batch is refused. -/
  headers : Folder → List Uid → List Uid
  /-- The text of the message comes back. -/
  delivers : Folder → Uid → Bool
  mail : Folder → Uid → GmailMessage

/-! ### The searches -/

def imapSinceDate (now : Int) : Option Int → Int
  | none => dateOf (now - days initialBackfillDays)
  | some lastSyncedAt => dateOf (lastSyncedAt - days 2)

def searchCriteria (now : Int) (lastSyncedAt : Option Int) (rule : FetchRule) : SearchCriteria where
  sender := rule.sender.filter (· ≠ "")
  subject := rule.subject.filter (· ≠ "")
  since :=
    if rule.needsBackfill then dateOf (now - days initialBackfillDays)
    else imapSinceDate now lastSyncedAt

/-- `rule.folder or "[Gmail]/All Mail"`. -/
def folderOf (rule : FetchRule) : Folder := (rule.folder.filter (· ≠ "")).getD "[Gmail]/All Mail"

/-- The connection and what the searches have answered. -/
structure SearchState where
  currentFolder : Option Folder
  /-- `imaplib` has a folder open. -/
  selected : Bool
  answers : List (FetchRule × List Uid)

def SearchState.start : SearchState := ⟨none, false, []⟩

section Fetch

variable (server : ImapServer) (now : Int) (lastSyncedAt : Option Int)

/-- The search of a rule in the folder that is open. -/
def searchSelected (st : SearchState) (rule : FetchRule) : Option SearchState :=
  -- `imaplib` raises where no folder is open
  if !st.selected then none
  else
    match server.search (folderOf rule) (searchCriteria now lastSyncedAt rule) with
    | .ok uids => some { st with answers := st.answers ++ [(rule, uids)] }
    | .refused => some st
    | .raised => none

/-- One turn of the loop over the rules. -/
def searchRule (st : SearchState) (rule : FetchRule) : Option SearchState :=
  if st.currentFolder = some (folderOf rule) then
    searchSelected server now lastSyncedAt st rule
  else
    match server.select (.search rule.id) (folderOf rule) with
    | .ok _ =>
      searchSelected server now lastSyncedAt
        { st with
          currentFolder := some (folderOf rule)
          selected := true } rule
    | .refused => some { st with selected := false }
    | .raised => none

def searchRules (rules : List FetchRule) : Option (List (FetchRule × List Uid)) :=
  (rules.foldlM (searchRule server now lastSyncedAt) .start).map (·.answers)

/-- `uid_to_rules`. -/
def uidToRules (answers : List (FetchRule × List Uid)) : OrderedDict Key (List FetchRule) :=
  .collect <| answers.flatMap fun a => a.2.map fun uid => ((folderOf a.1, uid), a.1)

/-- The rules whose search completed without a result. -/
def emptySearches (answers : List (FetchRule × List Uid)) : List Nat :=
  (answers.filter fun a => a.2 = [] && a.1.needsBackfill).map (·.1.id)

/-! ### The metadata -/

/-- `uid_meta`, as the keys it has. -/
def uidMeta (keys : List Key) : Option (List Key) :=
  (OrderedDict.collect keys).items.foldlM (fun known item =>
    match server.select .metadata item.1 with
    | .ok _ => some (known ++
        (item.2.toChunks 500).flatMap fun batch =>
          (server.headers item.1 batch).map fun uid => (item.1, uid))
    | .refused => some known
    | .raised => none) []

/-- `xgm or message_id or f"{uid}:{folder}"`. -/
def remoteIdOf (key : Key) : String :=
  let mail := server.mail key.1 key.2
  mail.gmailId.getD (if mail.messageId ≠ "" then mail.messageId else s!"{key.2}:{key.1}")

/-- The `X-GM-MSGID` of a message whose headers came. -/
def knownGmailId (known : List Key) (key : Key) : Option String :=
  if key ∈ known then (server.mail key.1 key.2).gmailId else none

/-- Keep a message in several folders where it came first. -/
def dedupe (known : List Key) (seen : List String) : List Key → List Key
  | [] => []
  | key :: keys =>
    match knownGmailId server known key with
    | some xgm => if xgm ∈ seen then dedupe known seen keys
        else key :: dedupe known (xgm :: seen) keys
    | none => key :: dedupe known seen keys

/-- What is not stored, of the messages whose headers came. -/
def newKeys (existing : List String) (known : List Key) (keys : List Key) : List Key :=
  (dedupe server known [] keys).filter fun key =>
    !(key ∈ known && remoteIdOf server key ∈ existing)

/-! ### The messages -/

/-- `source_limit`; nothing is cut off at `0`. -/
def sourceLimit (fetchLimit : Int) (rules : List FetchRule) : Nat :=
  fetchLimit.toNat * rules.length

def cut (limit : Nat) (keys : List Key) : List Key := if 0 < limit then keys.take limit else keys

/-- The messages that come back, and that no `SELECT` raised. -/
def fetchFolders : List (Folder × List Key) → List Key × Bool
  | [] => ([], true)
  | (folder, keys) :: rest =>
    match server.select .messages folder with
    | .ok _ =>
      let later := fetchFolders rest
      (keys.filter (fun key => server.delivers key.1 key.2) ++ later.1, later.2)
    | .refused => fetchFolders rest
    | .raised => ([], false)

def fetchMessages (keys : List Key) : List Key × Bool :=
  fetchFolders server (OrderedDict.collect (keys.map fun key => (key.1, key))).items

variable [UnicodeTables] (address : String → String) (sourceId : Nat)

/-- The filter of the rule on the message at a key. -/
def acceptsMail (rule : FetchRule) (key : Key) : Bool :=
  let mail := server.mail key.1 key.2
  matchesRuleFilters address rule (some mail.sender) (some mail.subject)

def fetchedEmail (key : Key) : FetchedEmail where
  msgId := messageIdOf sourceId "gmail" (remoteIdOf server key)
  remoteId := remoteIdOf server key
  rawBytes := (server.mail key.1 key.2).rawBytes

/-- The messages handed to a rule, of those that came back. -/
def resultsOf (answers : List (FetchRule × List Uid)) (fetched : List Key) (id : Nat) :
    List FetchedEmail :=
  fetched.flatMap fun key =>
    ((((uidToRules answers).get? key).getD []).filter fun rule =>
      rule.id = id && acceptsMail server address rule key).map fun _ =>
        fetchedEmail server sourceId key

def fetchGmailSource (credentials : Bool) (fetchLimit : Int) (existing : List String)
    (rules : List FetchRule) : FetchSourceResult :=
  let failed : FetchSourceResult := ⟨fun _ => [], false, []⟩
  if !credentials || !server.login then failed
  else
    match searchRules server now lastSyncedAt rules with
    | none => failed
    | some answers =>
      let keys := (uidToRules answers).keys
      let ready := emptySearches answers
      if keys = [] then ⟨fun _ => [], true, ready⟩
      else
        match uidMeta server keys with
        | none => failed
        | some known =>
          let new := newKeys server existing known keys
          if new = [] then
            ⟨fun _ => [], true, ready ++
              ((answers.filter fun a => a.2 ≠ [] && a.1.needsBackfill).map (·.1.id))⟩
          else
            let fetched := fetchMessages server (cut (sourceLimit fetchLimit rules) new)
            let results := resultsOf server address sourceId answers fetched.1
            if fetched.2 then
              ⟨results, true, ready ++ ((rules.map (·.id)).filter fun id => results id ≠ [])⟩
            else ⟨results, false, []⟩

end Fetch

/-! ### What the searches gather -/

section Gathered

variable {server : ImapServer} {now : Int} {lastSyncedAt : Option Int}
  {st st' : SearchState} {rule : FetchRule} {rules : List FetchRule}
  {answers : List (FetchRule × List Uid)} {key : Key}

/-- The search of the rule was answered, and the message is in the answer. -/
def KeyOf (answers : List (FetchRule × List Uid)) (rule : FetchRule) (key : Key) : Prop :=
  ∃ uids, (rule, uids) ∈ answers ∧ key.1 = folderOf rule ∧ key.2 ∈ uids

theorem answers_of_searchSelected
    (h : searchSelected server now lastSyncedAt st rule = some st') :
    st'.answers = st.answers ∨ ∃ uids,
      server.search (folderOf rule) (searchCriteria now lastSyncedAt rule) = .ok uids ∧
        st'.answers = st.answers ++ [(rule, uids)] := by
  unfold searchSelected at h
  split_ifs at h
  split at h
  · rename_i uids huids
    obtain rfl := Option.some.inj h
    exact .inr ⟨uids, huids, rfl⟩
  · obtain rfl := Option.some.inj h
    exact .inl rfl
  · cases h

/-- A turn adds the answer of its rule, or none. -/
theorem answers_of_searchRule (h : searchRule server now lastSyncedAt st rule = some st') :
    st'.answers = st.answers ∨ ∃ uids,
      server.search (folderOf rule) (searchCriteria now lastSyncedAt rule) = .ok uids ∧
        st'.answers = st.answers ++ [(rule, uids)] := by
  unfold searchRule at h
  split_ifs at h
  · exact answers_of_searchSelected h
  · split at h
    · have hanswers := answers_of_searchSelected h
      exact hanswers
    · obtain rfl := Option.some.inj h
      exact .inl rfl
    · cases h

/-- What was answered, rule by rule. -/
def Answered (server : ImapServer) (now : Int) (lastSyncedAt : Option Int)
    (rules : List FetchRule) (answers : List (FetchRule × List Uid)) : Prop :=
  ∀ a ∈ answers, a.1 ∈ rules ∧
    server.search (folderOf a.1) (searchCriteria now lastSyncedAt a.1) = .ok a.2

theorem answered_of_foldlM (h : rules.foldlM (searchRule server now lastSyncedAt) st = some st')
    {all : List FetchRule} (hsub : rules ⊆ all)
    (hst : Answered server now lastSyncedAt all st.answers) :
    Answered server now lastSyncedAt all st'.answers := by
  induction rules generalizing st with
  | nil =>
    obtain rfl := Option.some.inj h
    exact hst
  | cons rule rules ih =>
    rw [List.foldlM_cons] at h
    obtain ⟨st₁, hstep, hrest⟩ := Option.bind_eq_some_iff.mp h
    refine ih hrest (fun r hr => hsub (List.mem_cons_of_mem _ hr)) ?_
    rcases answers_of_searchRule hstep with heq | ⟨uids, huids, heq⟩
    · rwa [heq]
    · rw [heq]
      intro a ha
      rcases List.mem_append.mp ha with ha | ha
      · exact hst a ha
      · obtain rfl := List.mem_singleton.mp ha
        exact ⟨hsub List.mem_cons_self, huids⟩

/-- **An answer is what the server said to the search of a rule.** -/
theorem answered_of_searchRules (h : searchRules server now lastSyncedAt rules = some answers) :
    Answered server now lastSyncedAt rules answers := by
  obtain ⟨st, hst, rfl⟩ := Option.map_eq_some_iff.mp h
  exact answered_of_foldlM hst (List.Subset.refl _) fun a ha => by cases ha

/-- **What is gathered under a message are the rules whose search found it.** -/
theorem mem_found : rule ∈ ((uidToRules answers).get? key).getD [] ↔ KeyOf answers rule key := by
  unfold uidToRules KeyOf
  rw [OrderedDict.getD_collect]
  simp only [List.mem_map, List.mem_filter, List.mem_flatMap, decide_eq_true_eq]
  constructor
  · rintro ⟨p, ⟨⟨a, ha, uid, huid, rfl⟩, rfl⟩, rfl⟩
    exact ⟨a.2, ha, rfl, huid⟩
  · rintro ⟨uids, ha, hfolder, huid⟩
    exact ⟨(key, rule), ⟨⟨(rule, uids), ha, key.2, huid, by rw [← hfolder]⟩, rfl⟩, rfl⟩

theorem mem_keys_uidToRules : key ∈ (uidToRules answers).keys ↔ ∃ rule, KeyOf answers rule key := by
  unfold uidToRules KeyOf
  rw [OrderedDict.mem_keys_collect]
  simp only [List.mem_flatMap, List.mem_map]
  constructor
  · rintro ⟨rule, a, ha, uid, huid, heq⟩
    obtain ⟨rfl, rfl⟩ := Prod.mk.inj heq
    exact ⟨a.1, a.2, ha, rfl, huid⟩
  · rintro ⟨rule, uids, ha, hfolder, huid⟩
    exact ⟨rule, (rule, uids), ha, key.2, huid, by rw [← hfolder]⟩

theorem mem_emptySearches {id : Nat} : id ∈ emptySearches answers ↔
    ∃ rule, (rule, []) ∈ answers ∧ rule.needsBackfill = true ∧ rule.id = id := by
  unfold emptySearches
  simp only [List.mem_map, List.mem_filter, Bool.and_eq_true, decide_eq_true_eq]
  constructor
  · rintro ⟨⟨rule, uids⟩, ⟨ha, hempty, hneeds⟩, hid⟩
    obtain rfl : uids = [] := hempty
    exact ⟨rule, ha, hneeds, hid⟩
  · rintro ⟨rule, ha, hneeds, hid⟩
    exact ⟨(rule, []), ⟨ha, rfl, hneeds⟩, hid⟩

end Gathered

/-! ### What is new -/

section New

variable {server : ImapServer} {existing : List String} {known keys : List Key} {key : Key}

theorem remoteIdOf_of_knownGmailId {xgm : String} (h : knownGmailId server known key = some xgm) :
    key ∈ known ∧ remoteIdOf server key = xgm := by
  unfold knownGmailId at h
  split_ifs at h with hknown
  refine ⟨hknown, ?_⟩
  unfold remoteIdOf
  dsimp only
  rw [h]
  rfl

/-- A message that is dropped has a copy before it. -/
theorem mem_dedupe {seen : List String} (h : key ∈ keys) :
    key ∈ dedupe server known seen keys ∨ ∃ xgm, knownGmailId server known key = some xgm ∧
      (xgm ∈ seen ∨ ∃ copy ∈ dedupe server known seen keys,
        knownGmailId server known copy = some xgm) := by
  induction keys generalizing seen with
  | nil => cases h
  | cons k keys ih =>
    unfold dedupe
    cases hk : knownGmailId server known k with
    | none =>
      rcases List.mem_cons.mp h with rfl | h
      · exact .inl List.mem_cons_self
      · rcases @ih seen h with hkept | ⟨xgm, hxgm, hseen | ⟨copy, hcopy, hsame⟩⟩
        · exact .inl (List.mem_cons_of_mem _ hkept)
        · exact .inr ⟨xgm, hxgm, .inl hseen⟩
        · exact .inr ⟨xgm, hxgm, .inr ⟨copy, List.mem_cons_of_mem _ hcopy, hsame⟩⟩
    | some first =>
      dsimp only
      by_cases hfirst : first ∈ seen
      · rw [if_pos hfirst]
        rcases List.mem_cons.mp h with rfl | h
        · exact .inr ⟨first, hk, .inl hfirst⟩
        · exact ih h
      · rw [if_neg hfirst]
        rcases List.mem_cons.mp h with rfl | h
        · exact .inl List.mem_cons_self
        · rcases @ih (first :: seen) h with hkept | ⟨xgm, hxgm, hseen | ⟨copy, hcopy, hsame⟩⟩
          · exact .inl (List.mem_cons_of_mem _ hkept)
          · rcases List.mem_cons.mp hseen with rfl | hseen
            · exact .inr ⟨xgm, hxgm, .inr ⟨k, List.mem_cons_self, hk⟩⟩
            · exact .inr ⟨xgm, hxgm, .inl hseen⟩
          · exact .inr ⟨xgm, hxgm, .inr ⟨copy, List.mem_cons_of_mem _ hcopy, hsame⟩⟩

theorem mem_newKeys : key ∈ newKeys server existing known keys ↔
    key ∈ dedupe server known [] keys ∧
      ¬ (key ∈ known ∧ remoteIdOf server key ∈ existing) := by
  unfold newKeys
  rw [List.mem_filter]
  simp only [Bool.not_eq_true', Bool.and_eq_false_iff, decide_eq_false_iff_not, not_and_or]

/-- **Where nothing is new, everything is stored.** -/
theorem stored_of_newKeys_nil (h : newKeys server existing known keys = []) (hkey : key ∈ keys) :
    remoteIdOf server key ∈ existing := by
  have hall : ∀ k ∈ dedupe server known [] keys, remoteIdOf server k ∈ existing := by
    intro k hk
    by_contra hnew
    have hmem : k ∈ newKeys server existing known keys :=
      mem_newKeys.mpr ⟨hk, fun hstored => hnew hstored.2⟩
    rw [h] at hmem
    cases hmem
  have hcases : key ∈ dedupe server known [] keys ∨ ∃ xgm,
      knownGmailId server known key = some xgm ∧ (xgm ∈ [] ∨
        ∃ copy ∈ dedupe server known [] keys, knownGmailId server known copy = some xgm) :=
    mem_dedupe hkey
  rcases hcases with hkept | ⟨xgm, hxgm, hseen | ⟨copy, hcopy, hsame⟩⟩
  · exact hall key hkept
  · cases hseen
  · rw [(remoteIdOf_of_knownGmailId hxgm).2, ← (remoteIdOf_of_knownGmailId hsame).2]
    exact hall copy hcopy

end New

/-! ### What comes back -/

section Messages

variable {server : ImapServer} {keys : List Key} {key : Key}

/-- The folder opens, and the text of the message comes back. -/
def Delivered (server : ImapServer) (key : Key) : Prop :=
  server.select .messages key.1 = .ok () ∧ server.delivers key.1 key.2 = true

theorem fetchFolders_completes_iff {items : List (Folder × List Key)} :
    (fetchFolders server items).2 = true ↔
      ∀ i ∈ items, server.select .messages i.1 ≠ .raised := by
  induction items with
  | nil => exact iff_of_true rfl nofun
  | cons i items ih =>
    rw [List.forall_mem_cons]
    unfold fetchFolders
    cases hselect : server.select .messages i.1 with
    | ok a => exact ih.trans (iff_and_self.mpr fun _ => nofun)
    | refused => exact ih.trans (iff_and_self.mpr fun _ => nofun)
    | raised => exact iff_of_false nofun fun h => h.1 rfl

theorem mem_fetchFolders {items : List (Folder × List Key)}
    (h : ∀ i ∈ items, server.select .messages i.1 ≠ .raised) :
    key ∈ (fetchFolders server items).1 ↔
      ∃ i ∈ items, key ∈ i.2 ∧ server.select .messages i.1 = .ok () ∧
        server.delivers key.1 key.2 = true := by
  induction items with
  | nil => simp [fetchFolders]
  | cons i items ih =>
    obtain ⟨hi, hrest⟩ := List.forall_mem_cons.mp h
    have ih := ih hrest
    unfold fetchFolders
    cases hselect : server.select .messages i.1 with
    | ok a =>
      simp only [List.mem_append, List.mem_filter, ih, List.exists_mem_cons_iff, hselect]
      tauto
    | refused =>
      simp only [ih, List.exists_mem_cons_iff, hselect]
      simp
    | raised => exact absurd hselect hi

theorem fetchMessages_completes_iff : (fetchMessages server keys).2 = true ↔
    ∀ k ∈ keys, server.select .messages k.1 ≠ .raised :=
  fetchFolders_completes_iff.trans <|
    (OrderedDict.forall_items_collect (P := (server.select .messages · ≠ .raised))).trans
      List.forall_mem_map

/-- **What is asked for and delivered comes back.** -/
theorem mem_fetchMessages (h : ∀ k ∈ keys, server.select .messages k.1 ≠ .raised) :
    key ∈ (fetchMessages server keys).1 ↔ key ∈ keys ∧ Delivered server key := by
  unfold fetchMessages
  rw [mem_fetchFolders (fetchFolders_completes_iff.mp (fetchMessages_completes_iff.mpr h))]
  have hitems := OrderedDict.exists_item_collect (keys.map fun key => (key.1, key))
    (P := fun folder => server.select .messages folder = .ok () ∧
      server.delivers key.1 key.2 = true) (a := key)
  rw [hitems]
  constructor
  · rintro ⟨folder, hmem, hdelivered⟩
    obtain ⟨k, hk, heq⟩ := List.mem_map.mp hmem
    obtain ⟨rfl, rfl⟩ := Prod.mk.inj heq
    exact ⟨hk, hdelivered⟩
  · rintro ⟨hkey, hdelivered⟩
    exact ⟨key.1, List.mem_map.mpr ⟨key, hkey, rfl⟩, hdelivered⟩

end Messages

/-! ### What is handed over -/

section Backfill

variable [UnicodeTables] (server : ImapServer) (now : Int) (lastSyncedAt : Option Int)
  (address : String → String) (sourceId : Nat) (credentials : Bool) (fetchLimit : Int)
  (existing : List String) (rules : RuleSet)

variable {server address sourceId} in
theorem mem_resultsOf {answers : List (FetchRule × List Uid)} {fetched : List Key} {id : Nat}
    {e : FetchedEmail} : e ∈ resultsOf server address sourceId answers fetched id ↔
      ∃ key ∈ fetched, ∃ rule, KeyOf answers rule key ∧ rule.id = id ∧
        acceptsMail server address rule key = true ∧ e = fetchedEmail server sourceId key := by
  unfold resultsOf
  simp only [List.mem_flatMap, List.mem_map, List.mem_filter, mem_found, Bool.and_eq_true,
    decide_eq_true_eq]
  constructor
  · rintro ⟨key, hkey, rule, ⟨hof, hid, haccepts⟩, rfl⟩
    exact ⟨key, hkey, rule, hof, hid, haccepts, rfl⟩
  · rintro ⟨key, hkey, rule, hof, hid, haccepts, rfl⟩
    exact ⟨key, hkey, rule, ⟨hof, hid, haccepts⟩, rfl⟩

/-- The messages that are to be fetched, and those of them that the limit lets through. -/
structure Plan where
  answers : List (FetchRule × List Uid)
  known : List Key
  new : List Key
  chosen : List Key
  deriving DecidableEq

/-- The searches and the headers; none where the session breaks down. -/
def plan : Option Plan :=
  if !credentials || !server.login then none
  else
    (searchRules server now lastSyncedAt rules.rules).bind fun answers =>
      (uidMeta server (uidToRules answers).keys).map fun known =>
        let new := newKeys server existing known (uidToRules answers).keys
        ⟨answers, known, new, cut (sourceLimit fetchLimit rules.rules) new⟩

/-- The Gmail fetch, as far as the initial backfill goes. -/
def gmailBackfill : Backfill Key where
  result := fetchGmailSource server now lastSyncedAt address sourceId credentials fetchLimit
    existing rules.rules
  Found rule key := ∃ uids,
    server.search (folderOf rule) (searchCriteria now lastSyncedAt rule) = .ok uids ∧
      key.1 = folderOf rule ∧ key.2 ∈ uids
  Accepts rule key := acceptsMail server address rule key = true
  remoteId := remoteIdOf server
  CutOff _ key := ∃ p, plan server now lastSyncedAt credentials fetchLimit existing rules = some p ∧
    key ∈ p.new ∧ key ∉ p.chosen
  Undelivered _ key := ∃ p,
    plan server now lastSyncedAt credentials fetchLimit existing rules = some p ∧
      key ∈ p.chosen ∧ ¬ Delivered server key

/-! ### When something is lost -/

/-- A message that is delivered to a rule which wants it. -/
def Served (p : Plan) (rule : FetchRule) (key : Key) : Prop :=
  KeyOf p.answers rule key ∧ key ∈ p.chosen ∧ Delivered server key ∧
    acceptsMail server address rule key = true

/-- A message that the rule wants is hidden by a copy in a folder searched before, and no
copy of it is delivered to a rule that wants it. -/
def Hidden (p : Plan) (rule : FetchRule) (key : Key) : Prop :=
  key ∉ dedupe server p.known [] (uidToRules p.answers).keys ∧
    acceptsMail server address rule key = true ∧ remoteIdOf server key ∉ existing ∧
      ¬ ∃ other copy, Served server address p other copy ∧
        remoteIdOf server copy = remoteIdOf server key

def LeftBehind (p : Plan) (rule : FetchRule) (key : Key) : Prop :=
  KeyOf p.answers rule key ∧
    (key ∈ p.new ∧ key ∉ p.chosen ∨ key ∈ p.chosen ∧ ¬ Delivered server key ∨
      Hidden server address existing p rule key)

/-- **A rule waits for its backfill, is served with a message and leaves another behind**, in a
session that does not break down. -/
def GmailLoses : Prop :=
  ∃ p, plan server now lastSyncedAt credentials fetchLimit existing rules = some p ∧
    (∀ key ∈ p.chosen, server.select .messages key.1 ≠ .raised) ∧
    ∃ rule, rule.needsBackfill = true ∧ (∃ key, Served server address p rule key) ∧
      ∃ key, LeftBehind server address existing p rule key

/-! ### Which backfills are taken for complete -/

variable {server now lastSyncedAt address sourceId credentials fetchLimit existing rules}
  {p : Plan} {rule : FetchRule} {key : Key} {id : Nat}

theorem result_of_plan_none
    (h : plan server now lastSyncedAt credentials fetchLimit existing rules = none) :
    (fetchGmailSource server now lastSyncedAt address sourceId credentials fetchLimit existing
      rules.rules).backfillReadyRuleIds = [] := by
  unfold plan at h
  unfold fetchGmailSource
  dsimp only
  split_ifs at h ⊢ with hlogin
  · rfl
  · cases hsearch : searchRules server now lastSyncedAt rules.rules with
    | none => rfl
    | some answers =>
      rw [hsearch, Option.bind_some, Option.map_eq_none_iff] at h
      dsimp only
      split_ifs with hkeys
      · rw [hkeys] at h
        cases h
      · rw [h]

omit [UnicodeTables] in
theorem answered_of_plan
    (h : plan server now lastSyncedAt credentials fetchLimit existing rules = some p) :
    Answered server now lastSyncedAt rules.rules p.answers := by
  unfold plan at h
  split_ifs at h
  obtain ⟨answers, hanswers, hmeta⟩ := Option.bind_eq_some_iff.mp h
  obtain ⟨known, -, rfl⟩ := Option.map_eq_some_iff.mp hmeta
  exact answered_of_searchRules hanswers

omit [UnicodeTables] in
theorem new_of_plan
    (h : plan server now lastSyncedAt credentials fetchLimit existing rules = some p) :
    p.new = newKeys server existing p.known (uidToRules p.answers).keys ∧
      p.chosen = cut (sourceLimit fetchLimit rules.rules) p.new := by
  unfold plan at h
  split_ifs at h
  obtain ⟨answers, -, hmeta⟩ := Option.bind_eq_some_iff.mp h
  obtain ⟨known, -, rfl⟩ := Option.map_eq_some_iff.mp hmeta
  exact ⟨rfl, rfl⟩

/-- The fetch from the plan on. -/
theorem result_of_plan
    (h : plan server now lastSyncedAt credentials fetchLimit existing rules = some p)
    (hnew : p.new ≠ []) :
    fetchGmailSource server now lastSyncedAt address sourceId credentials fetchLimit existing
        rules.rules =
      if (fetchMessages server p.chosen).2 then
        ⟨resultsOf server address sourceId p.answers (fetchMessages server p.chosen).1, true,
          emptySearches p.answers ++ ((rules.rules.map (·.id)).filter fun id =>
            resultsOf server address sourceId p.answers (fetchMessages server p.chosen).1 id ≠ [])⟩
      else
        ⟨resultsOf server address sourceId p.answers (fetchMessages server p.chosen).1, false,
          []⟩ := by
  unfold plan at h
  unfold fetchGmailSource
  dsimp only
  split_ifs at h with hlogin
  rw [if_neg hlogin]
  obtain ⟨answers, hanswers, hmeta⟩ := Option.bind_eq_some_iff.mp h
  obtain ⟨known, hknown, rfl⟩ := Option.map_eq_some_iff.mp hmeta
  dsimp only at hnew ⊢
  rw [hanswers]
  dsimp only
  have hkeys : (uidToRules answers).keys ≠ [] := by
    intro hkeys
    rw [hkeys] at hnew
    exact hnew rfl
  rw [if_neg hkeys, hknown]
  dsimp only
  rw [if_neg hnew]

/-- **Where nothing is new, the rules whose search was answered are ready.** -/
theorem mem_ready_of_nil
    (h : plan server now lastSyncedAt credentials fetchLimit existing rules = some p)
    (hnew : p.new = []) :
    id ∈ (fetchGmailSource server now lastSyncedAt address sourceId credentials fetchLimit
        existing rules.rules).backfillReadyRuleIds ↔
      ∃ rule uids, (rule, uids) ∈ p.answers ∧ rule.needsBackfill = true ∧ rule.id = id := by
  unfold plan at h
  unfold fetchGmailSource
  dsimp only
  split_ifs at h with hlogin
  rw [if_neg hlogin]
  obtain ⟨answers, hanswers, hmeta⟩ := Option.bind_eq_some_iff.mp h
  obtain ⟨known, hknown, rfl⟩ := Option.map_eq_some_iff.mp hmeta
  dsimp only at hnew ⊢
  rw [hanswers]
  dsimp only
  by_cases hkeys : (uidToRules answers).keys = []
  · rw [if_pos hkeys]
    dsimp only
    rw [mem_emptySearches]
    constructor
    · rintro ⟨rule, ha, hneeds, hid⟩
      exact ⟨rule, [], ha, hneeds, hid⟩
    · rintro ⟨rule, uids, ha, hneeds, hid⟩
      cases uids with
      | nil => exact ⟨rule, ha, hneeds, hid⟩
      | cons uid uids =>
        have hkey : (folderOf rule, uid) ∈ (uidToRules answers).keys :=
          mem_keys_uidToRules.mpr ⟨rule, _, ha, rfl, List.mem_cons_self⟩
        rw [hkeys] at hkey
        cases hkey
  · rw [if_neg hkeys, hknown]
    dsimp only
    rw [if_pos hnew]
    dsimp only
    rw [List.mem_append, mem_emptySearches]
    simp only [List.mem_map, List.mem_filter, Bool.and_eq_true, decide_eq_true_eq]
    constructor
    · rintro (⟨rule, ha, hneeds, hid⟩ | ⟨⟨rule, uids⟩, ⟨ha, -, hneeds⟩, hid⟩)
      · exact ⟨rule, [], ha, hneeds, hid⟩
      · exact ⟨rule, uids, ha, hneeds, hid⟩
    · rintro ⟨rule, uids, ha, hneeds, hid⟩
      cases uids with
      | nil => exact .inl ⟨rule, ha, hneeds, hid⟩
      | cons uid uids => exact .inr ⟨(rule, uid :: uids), ⟨ha, List.cons_ne_nil _ _, hneeds⟩, hid⟩

/-- **Where something is new, those with an empty search and those that are served are.** -/
theorem mem_ready_of_new
    (h : plan server now lastSyncedAt credentials fetchLimit existing rules = some p)
    (hnew : p.new ≠ []) (hopen : ∀ k ∈ p.chosen, server.select .messages k.1 ≠ .raised)
    (hrule : rule ∈ rules) :
    rule.id ∈ (fetchGmailSource server now lastSyncedAt address sourceId credentials fetchLimit
        existing rules.rules).backfillReadyRuleIds ↔
      rule.needsBackfill = true ∧ (rule, []) ∈ p.answers ∨
        ∃ key, Served server address p rule key := by
  have hanswered := answered_of_plan h
  rw [result_of_plan h hnew, if_pos (fetchMessages_completes_iff.mpr hopen)]
  dsimp only
  rw [List.mem_append, mem_emptySearches, List.mem_filter, decide_eq_true_eq]
  refine or_congr ⟨?_, fun ⟨hneeds, ha⟩ => ⟨rule, ha, hneeds, rfl⟩⟩ ⟨?_, ?_⟩
  · rintro ⟨other, ha, hneeds, hid⟩
    obtain rfl := rules.eq_of_id (hanswered _ ha).1 hrule hid
    exact ⟨hneeds, ha⟩
  · rintro ⟨-, hresults⟩
    obtain ⟨e, he⟩ := List.exists_mem_of_ne_nil _ hresults
    obtain ⟨key, hkey, other, hof, hid, haccepts, -⟩ := mem_resultsOf.mp he
    obtain ⟨hchosen, hdelivered⟩ := (mem_fetchMessages hopen).mp hkey
    obtain ⟨uids, ha, hfound⟩ := hof
    obtain rfl := rules.eq_of_id (hanswered _ ha).1 hrule hid
    exact ⟨key, ⟨uids, ha, hfound⟩, hchosen, hdelivered, haccepts⟩
  · rintro ⟨key, hof, hchosen, hdelivered, haccepts⟩
    refine ⟨List.mem_map.mpr ⟨rule, hrule, rfl⟩,
      List.ne_nil_of_mem (a := fetchedEmail server sourceId key) ?_⟩
    exact mem_resultsOf.mpr ⟨key, (mem_fetchMessages hopen).mpr ⟨hchosen, hdelivered⟩, rule, hof,
      rfl, haccepts, rfl⟩

theorem exists_result_iff
    (h : plan server now lastSyncedAt credentials fetchLimit existing rules = some p)
    (hnew : p.new ≠ []) (hopen : ∀ k ∈ p.chosen, server.select .messages k.1 ≠ .raised)
    {remoteId : String} :
    (∃ other ∈ rules, ∃ e ∈ (fetchGmailSource server now lastSyncedAt address sourceId credentials
        fetchLimit existing rules.rules).resultsByRule other.id, e.remoteId = remoteId) ↔
      ∃ other copy, Served server address p other copy ∧ remoteIdOf server copy = remoteId := by
  have hanswered := answered_of_plan h
  rw [result_of_plan h hnew, if_pos (fetchMessages_completes_iff.mpr hopen)]
  constructor
  · rintro ⟨_, _, e, he, rfl⟩
    obtain ⟨copy, hcopy, other, hof, -, haccepts, rfl⟩ := mem_resultsOf.mp he
    obtain ⟨hchosen, hdelivered⟩ := (mem_fetchMessages hopen).mp hcopy
    exact ⟨other, copy, ⟨hof, hchosen, hdelivered, haccepts⟩, rfl⟩
  · rintro ⟨other, copy, ⟨hof, hchosen, hdelivered, haccepts⟩, rfl⟩
    obtain ⟨uids, ha, hfound⟩ := hof
    exact ⟨other, (hanswered _ ha).1, fetchedEmail server sourceId copy,
      mem_resultsOf.mpr ⟨copy, (mem_fetchMessages hopen).mpr ⟨hchosen, hdelivered⟩, other,
        ⟨uids, ha, hfound⟩, rfl, haccepts, rfl⟩, rfl⟩

/-! ### Nothing lost -/

omit [UnicodeTables] in
theorem new_of_chosen
    (h : plan server now lastSyncedAt credentials fetchLimit existing rules = some p)
    (hkey : key ∈ p.chosen) : key ∈ p.new := by
  rw [(new_of_plan h).2] at hkey
  unfold cut at hkey
  split_ifs at hkey
  · exact List.mem_of_mem_take hkey
  · exact hkey

omit [UnicodeTables] in
/-- Where nothing is new, every message of a rule that is ready is stored. -/
theorem stored_of_ready
    (h : plan server now lastSyncedAt credentials fetchLimit existing rules = some p)
    (hnew : p.new = []) (hof : KeyOf p.answers rule key) : remoteIdOf server key ∈ existing :=
  stored_of_newKeys_nil ((new_of_plan h).1.symm.trans hnew) (mem_keys_uidToRules.mpr ⟨rule, hof⟩)

/-- What a rule asked for and does not leave behind is accounted for. -/
theorem copy_of_kept
    (h : plan server now lastSyncedAt credentials fetchLimit existing rules = some p)
    (hof : KeyOf p.answers rule key) (hkept : ¬ LeftBehind server address existing p rule key)
    (hstored : remoteIdOf server key ∉ existing)
    (haccepts : acceptsMail server address rule key = true) :
    ∃ other copy, Served server address p other copy ∧
      remoteIdOf server copy = remoteIdOf server key := by
  by_contra hcopy
  by_cases hfirst : key ∈ dedupe server p.known [] (uidToRules p.answers).keys
  · have hmem : key ∈ p.new := by
      rw [(new_of_plan h).1]
      exact mem_newKeys.mpr ⟨hfirst, fun hknown => hstored hknown.2⟩
    have hchosen : key ∈ p.chosen := by
      by_contra hcut
      exact hkept ⟨hof, .inl ⟨hmem, hcut⟩⟩
    have hdelivered : Delivered server key := by
      by_contra hback
      exact hkept ⟨hof, .inr (.inl ⟨hchosen, hback⟩)⟩
    exact hcopy ⟨rule, key, ⟨hof, hchosen, hdelivered, haccepts⟩, rfl⟩
  · exact hkept ⟨hof, .inr (.inr ⟨hfirst, haccepts, hstored, hcopy⟩)⟩

/-- What a served rule leaves behind is lost. -/
theorem not_gmailLoses
    (h : (gmailBackfill server now lastSyncedAt address sourceId credentials fetchLimit existing
      rules).LosesNothing rules existing) :
    ¬ GmailLoses server now lastSyncedAt address credentials fetchLimit existing rules := by
  rintro ⟨p, hplan, hopen, rule, hneeds, ⟨served, hserved⟩, key, hof, hleft⟩
  have hanswered := answered_of_plan hplan
  obtain ⟨uids, ha, hfolder, huid⟩ := hof
  have hrule : rule ∈ rules := (hanswered _ ha).1
  have hnew : p.new ≠ [] := List.ne_nil_of_mem (new_of_chosen hplan hserved.2.1)
  have hready : rule.id ∈ (fetchGmailSource server now lastSyncedAt address sourceId credentials
      fetchLimit existing rules.rules).backfillReadyRuleIds :=
    (mem_ready_of_new hplan hnew hopen hrule).mpr (.inr ⟨served, hserved⟩)
  obtain ⟨haccounted, hcut, hundelivered⟩ :=
    h rule hrule hneeds hready key ⟨uids, (hanswered _ ha).2, hfolder, huid⟩
  rcases hleft with hleft | hleft | ⟨-, haccepts, hstored, hcopy⟩
  · exact hcut ⟨p, hplan, hleft⟩
  · exact hundelivered ⟨p, hplan, hleft⟩
  · rcases haccounted with hfetched | hexisting | hrejected
    · exact hcopy ((exists_result_iff hplan hnew hopen).mp hfetched)
    · exact hstored hexisting
    · exact hrejected haccepts

/-- **The Gmail fetch loses nothing but where a served rule leaves a message behind.** -/
theorem gmail_losesNothing_iff :
    (gmailBackfill server now lastSyncedAt address sourceId credentials fetchLimit existing
        rules).LosesNothing rules existing ↔
      ¬ GmailLoses server now lastSyncedAt address credentials fetchLimit existing rules := by
  refine ⟨not_gmailLoses, fun hkept rule hrule hneeds hready key ⟨uids, huids, hfolder, huid⟩ => ?_⟩
  cases hplan : plan server now lastSyncedAt credentials fetchLimit existing rules with
  | none =>
    have hnone : (fetchGmailSource server now lastSyncedAt address sourceId credentials fetchLimit
      existing rules.rules).backfillReadyRuleIds = [] := result_of_plan_none hplan
    exact absurd (hnone ▸ hready : rule.id ∈ []) List.not_mem_nil
  | some p =>
    have hanswered := answered_of_plan hplan
    have hplan_eq : ∀ q, plan server now lastSyncedAt credentials fetchLimit existing rules =
        some q → q = p := fun q hq => Option.some.inj (hq.symm.trans hplan)
    -- the answer in the plan is the one the server gives
    have hanswer : ∀ found, (rule, found) ∈ p.answers → found = uids := fun found ha =>
      (Reply.ok.inj (huids.symm.trans (hanswered _ ha).2)).symm
    by_cases hnew : p.new = []
    · obtain ⟨other, found, ha, -, hid⟩ := (mem_ready_of_nil hplan hnew).mp hready
      obtain rfl := rules.eq_of_id (hanswered _ ha).1 hrule hid
      obtain rfl := hanswer found ha
      refine ⟨.inr (.inl (stored_of_ready hplan hnew ⟨found, ha, hfolder, huid⟩)), ?_, ?_⟩
      · rintro ⟨q, hq, hmem, -⟩
        rw [hplan_eq q hq, hnew] at hmem
        cases hmem
      · rintro ⟨q, hq, hmem, -⟩
        rw [hplan_eq q hq] at hmem
        have hmem := new_of_chosen hplan hmem
        rw [hnew] at hmem
        cases hmem
    · by_cases hopen : ∀ k ∈ p.chosen, server.select .messages k.1 ≠ .raised
      · rcases (mem_ready_of_new hplan hnew hopen hrule).mp hready with ⟨-, ha⟩ | ⟨served, hserved⟩
        · obtain rfl := hanswer [] ha
          cases huid
        · have hof : KeyOf p.answers rule key := by
            obtain ⟨⟨found, ha, -⟩, -⟩ := hserved
            obtain rfl := hanswer found ha
            exact ⟨found, ha, hfolder, huid⟩
          have hnone : ¬ LeftBehind server address existing p rule key := fun hleft =>
            hkept ⟨p, hplan, hopen, rule, hneeds, ⟨served, hserved⟩, key, hleft⟩
          refine ⟨?_, ?_, ?_⟩
          · by_contra haccounted
            unfold Backfill.Accounted at haccounted
            push Not at haccounted
            obtain ⟨hfetched, hstored, haccepts⟩ := haccounted
            have hresult : ∃ other ∈ rules, ∃ e ∈ (fetchGmailSource server now lastSyncedAt address
                sourceId credentials fetchLimit existing rules.rules).resultsByRule other.id,
                e.remoteId = remoteIdOf server key :=
              (exists_result_iff hplan hnew hopen).mpr
                (copy_of_kept hplan hof hnone hstored haccepts)
            obtain ⟨other, hother, e, he, heq⟩ := hresult
            exact hfetched other hother e he heq
          · rintro ⟨q, hq, hleft⟩
            rw [hplan_eq q hq] at hleft
            exact hnone ⟨hof, .inl hleft⟩
          · rintro ⟨q, hq, hleft⟩
            rw [hplan_eq q hq] at hleft
            exact hnone ⟨hof, .inr (.inl hleft)⟩
      · -- a session that breaks down names no rule
        have hready' : rule.id ∈ (fetchGmailSource server now lastSyncedAt address sourceId
          credentials fetchLimit existing rules.rules).backfillReadyRuleIds := hready
        rw [result_of_plan hplan hnew, if_neg (mt fetchMessages_completes_iff.mp hopen)] at hready'
        cases hready'

end Backfill

end FinancialDashboard.Mail
