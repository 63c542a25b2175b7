import FinancialDashboard.Lib.Numerals
import FinancialDashboard.Mail.Fastmail
import FinancialDashboard.Mail.Gmail

/-!
# What a source delivers

The two providers drop what is stored already.  Fastmail compares the ids of all it has found;
Gmail only those of the messages whose headers came back, and hands over the others as they are.

* `messageIdOf_injective`: the id of an email tells its source and its id there.
* `mem_uidMeta`: which headers come back.
* `fresh_fetchGmailSource`, `fresh_fetchFastmailSource`: what is delivered is not stored.
-/

namespace FinancialDashboard.Mail

open PyText

/-! ### Message ids -/

def providerKinds : List String := ["gmail", "fastmail"]

theorem toList_messageIdOf (sourceId : Nat) (kind remoteId : String) :
    (messageIdOf sourceId kind remoteId).toList =
      "src".toList ++ ((toString sourceId).toList ++
        ':' :: (kind.toList ++ ':' :: remoteId.toList)) := by
  unfold messageIdOf
  simp only [String.toList_append, List.append_assoc]
  rfl

theorem messageIdOf_injective {sourceId sourceId' : Nat} {kind kind' remoteId remoteId' : String}
    (hkind : kind ∈ providerKinds) (hkind' : kind' ∈ providerKinds)
    (h : messageIdOf sourceId kind remoteId = messageIdOf sourceId' kind' remoteId') :
    sourceId = sourceId' ∧ remoteId = remoteId' := by
  have hlist := congrArg String.toList h
  rw [toList_messageIdOf, toList_messageIdOf] at hlist
  obtain ⟨hdigits, hrest⟩ : (toString sourceId).toList = (toString sourceId').toList ∧
      kind.toList ++ ':' :: remoteId.toList = kind'.toList ++ ':' :: remoteId'.toList :=
    PyTime.append_injective (fun _ => PyTime.isDigit_of_mem_toString)
      (fun _ => PyTime.isDigit_of_mem_toString) (by decide) (List.append_cancel_left hlist)
  have hsame : kind.toList = kind'.toList → sourceId = sourceId' ∧ remoteId = remoteId' := by
    intro heq
    rw [heq] at hrest
    refine ⟨?_, String.ext (List.cons.inj (List.append_cancel_left hrest)).2⟩
    rw [← PyTime.ofDigitChars_toString sourceId, hdigits, PyTime.ofDigitChars_toString]
  have hhead : kind.toList.head? = kind'.toList.head? := by
    have hcongr := congrArg List.head? hrest
    rw [List.head?_append, List.head?_append] at hcongr
    rcases List.mem_pair.mp hkind with rfl | rfl <;>
      rcases List.mem_pair.mp hkind' with rfl | rfl <;> exact hcongr
  rcases List.mem_pair.mp hkind with rfl | rfl <;> rcases List.mem_pair.mp hkind' with rfl | rfl
  · exact hsame rfl
  · exact absurd hhead (by decide)
  · exact absurd hhead (by decide)
  · exact hsame rfl

/-! ### Batches -/

section Chunks

variable {α : Type} {n : Nat} {xs : List α}

theorem flatten_toChunksGo (acc : Array α) (done : Array (List α)) :
    (List.toChunks.go n xs acc done).flatten = done.toList.flatten ++ acc.toList ++ xs := by
  induction xs generalizing acc done with
  | nil => simp [List.toChunks.go]
  | cons x xs ih =>
    unfold List.toChunks.go
    split_ifs
    · rw [ih]
      simp
    · rw [ih]
      simp

/-- Nothing is lost between two batches. -/
theorem flatten_toChunks : (xs.toChunks n).flatten = xs := by
  cases xs with
  | nil => cases n <;> rfl
  | cons x xs =>
    cases n with
    | zero => simp [List.toChunks]
    | succ n =>
      show (List.toChunks.go (n + 1) xs #[x] #[]).flatten = x :: xs
      rw [flatten_toChunksGo]
      simp

end Chunks

/-! ### What is new -/

/-- The headers of every message that is asked about come back. -/
structure HeadersComeBack (server : ImapServer) : Prop where
  opens : ∀ folder, server.select .metadata folder ≠ .refused
  answers : ∀ folder batch, batch ⊆ server.headers folder batch

section Headers

variable {server : ImapServer} {keys known : List Key} {key : Key}

/-- Each turn keeps what is known, and adds what it was about. -/
theorem subset_of_foldlM {f : List Key → Folder × List Uid → Option (List Key)}
    (hstep : ∀ known item next, f known item = some next →
      known ⊆ next ∧ ∀ uid ∈ item.2, (item.1, uid) ∈ next)
    {items : List (Folder × List Uid)} {before : List Key}
    (h : items.foldlM f before = some known) :
    before ⊆ known ∧ ∀ item ∈ items, ∀ uid ∈ item.2, (item.1, uid) ∈ known := by
  induction items generalizing before with
  | nil =>
    obtain rfl := Option.some.inj h
    exact ⟨List.Subset.refl _, fun item hitem => by cases hitem⟩
  | cons item items ih =>
    rw [List.foldlM_cons] at h
    obtain ⟨next, hnext, hrest⟩ := Option.bind_eq_some_iff.mp h
    obtain ⟨hkept, hadded⟩ := hstep before item next hnext
    obtain ⟨hsub, hall⟩ := ih hrest
    refine ⟨List.Subset.trans hkept hsub, fun other hother => ?_⟩
    rcases List.mem_cons.mp hother with rfl | hother
    · exact fun uid huid => hsub (hadded uid huid)
    · exact hall other hother

/-- **Every header that is asked for comes back.** -/
theorem mem_uidMeta (hheaders : HeadersComeBack server) (h : uidMeta server keys = some known)
    (hkey : key ∈ keys) : key ∈ known := by
  unfold uidMeta at h
  have hall := (subset_of_foldlM (fun known item next hnext => ?_) h).2
  · obtain ⟨item, hitem, huid, hfolder⟩ :=
      (OrderedDict.exists_item_collect keys (P := fun folder => folder = key.1)).mpr
        ⟨key.1, hkey, rfl⟩
    have hmem := hall item hitem key.2 huid
    rw [hfolder] at hmem
    exact hmem
  · cases hselect : server.select .metadata item.1 with
    | ok _ =>
      rw [hselect] at hnext
      obtain rfl := Option.some.inj hnext
      refine ⟨List.subset_append_left _ _, fun uid huid => List.mem_append_right _ ?_⟩
      rw [← @flatten_toChunks Uid 500 item.2] at huid
      obtain ⟨batch, hbatch, hmem⟩ := List.mem_flatten.mp huid
      exact List.mem_flatMap.mpr ⟨batch, hbatch, List.mem_map.mpr
        ⟨uid, hheaders.answers item.1 batch hmem, rfl⟩⟩
    | refused => exact absurd hselect (hheaders.opens item.1)
    | raised =>
      rw [hselect] at hnext
      cases hnext
end Headers

section Fresh

variable [UnicodeTables] {server : ImapServer} {now : Int} {lastSyncedAt : Option Int}
  {address : String → String} {sourceId : Nat} {credentials : Bool} {fetchLimit : Int}
  {existing : List String} {rules : List FetchRule} {id : Nat} {e : FetchedEmail}

omit [UnicodeTables] in
theorem fetchMessages_subset {keys : List Key} : (fetchMessages server keys).1 ⊆ keys := by
  have hfolders : ∀ (items : List (Folder × List Key)) {key : Key},
      key ∈ (fetchFolders server items).1 → ∃ item ∈ items, key ∈ item.2 := by
    intro items
    induction items with
    | nil =>
      intro key h
      cases h
    | cons item items ih =>
      intro key h
      unfold fetchFolders at h
      cases hselect : server.select .messages item.1 with
      | ok _ =>
        rw [hselect] at h
        rcases List.mem_append.mp h with h | h
        · exact ⟨item, List.mem_cons_self, (List.mem_filter.mp h).1⟩
        · obtain ⟨other, hother, hmem⟩ := ih h
          exact ⟨other, List.mem_cons_of_mem _ hother, hmem⟩
      | refused =>
        rw [hselect] at h
        obtain ⟨other, hother, hmem⟩ := ih h
        exact ⟨other, List.mem_cons_of_mem _ hother, hmem⟩
      | raised =>
        rw [hselect] at h
        cases h
  intro key h
  obtain ⟨item, hitem, hmem⟩ := hfolders _ h
  obtain ⟨folder, hpair, -⟩ := (OrderedDict.exists_item_collect
    (keys.map fun key => (key.1, key)) (P := fun _ => True)).mp ⟨item, hitem, hmem, trivial⟩
  obtain ⟨k, hk, heq⟩ := List.mem_map.mp hpair
  obtain ⟨-, rfl⟩ := Prod.mk.inj heq
  exact hk

omit [UnicodeTables] in
theorem cut_subset {limit : Nat} {keys : List Key} : cut limit keys ⊆ keys := by
  unfold cut
  split_ifs
  · exact List.take_subset _ _
  · exact List.Subset.refl _

omit [UnicodeTables] in
theorem dedupe_subset {known keys : List Key} {seen : List String} :
    dedupe server known seen keys ⊆ keys := by
  induction keys generalizing seen with
  | nil => exact List.Subset.refl _
  | cons key keys ih =>
    unfold dedupe
    cases knownGmailId server known key with
    | none => exact List.cons_subset_cons key ih
    | some xgm =>
      dsimp only
      split_ifs
      · exact List.subset_cons_of_subset key ih
      · exact List.cons_subset_cons key ih

/-- What Gmail delivers is new, as far as headers tell. -/
theorem mem_fetchGmailSource (h : e ∈ (fetchGmailSource server now lastSyncedAt address sourceId
    credentials fetchLimit existing rules).resultsByRule id) :
    ∃ keys known key, uidMeta server keys = some known ∧ key ∈ keys ∧
      key ∈ newKeys server existing known keys ∧ e = fetchedEmail server sourceId key := by
  unfold fetchGmailSource at h
  dsimp only at h
  split_ifs at h
  · cases h
  cases hsearch : searchRules server now lastSyncedAt rules with
  | none =>
    rw [hsearch] at h
    cases h
  | some answers =>
    rw [hsearch] at h
    dsimp only at h
    split_ifs at h
    · cases h
    cases hknown : uidMeta server (uidToRules answers).keys with
    | none =>
      rw [hknown] at h
      cases h
    | some known =>
      rw [hknown] at h
      dsimp only at h
      split_ifs at h
      · cases h
      all_goals
        obtain ⟨key, hkey, -, -, -, -, rfl⟩ := mem_resultsOf.mp h
        have hnew := cut_subset (fetchMessages_subset hkey)
        exact ⟨_, known, key, hknown, dedupe_subset (mem_newKeys.mp hnew).1, hnew, rfl⟩

/-- **What Gmail delivers is not stored**, where the headers come back. -/
theorem fresh_fetchGmailSource (hheaders : HeadersComeBack server)
    (h : e ∈ (fetchGmailSource server now lastSyncedAt address sourceId
      credentials fetchLimit existing rules).resultsByRule id) : e.remoteId ∉ existing := by
  obtain ⟨keys, known, key, hknown, hkey, hnew, rfl⟩ := mem_fetchGmailSource h
  exact fun hstored => (mem_newKeys.mp hnew).2 ⟨mem_uidMeta hheaders hknown hkey, hstored⟩

omit [UnicodeTables] in
theorem exists_of_mem_download {server : JmapServer} {items : List (FetchRule × JmapEmail)}
    {p : Nat × FetchedEmail} (h : p ∈ (download server sourceId items).1) :
    ∃ i ∈ items, ∃ raw, p = (i.1.id, ⟨messageIdOf sourceId "fastmail" i.2.id, i.2.id, raw⟩) := by
  induction items with
  | nil => cases h
  | cons i items ih =>
    unfold download at h
    cases hblob : server.blob i.2.blobId with
    | none =>
      rw [hblob] at h
      cases h
    | some raw =>
      rw [hblob] at h
      rcases List.mem_cons.mp h with rfl | h
      · exact ⟨i, List.mem_cons_self, raw, rfl⟩
      · obtain ⟨j, hj, hp⟩ := ih h
        exact ⟨j, List.mem_cons_of_mem i hj, hp⟩

/-- **What Fastmail delivers is not stored.** -/
theorem fresh_fetchFastmailSource {server : JmapServer} {token : Bool}
    (h : e ∈ (fetchFastmailSource server now lastSyncedAt address sourceId fetchLimit token existing
      rules).resultsByRule id) :
    e.remoteId ∉ existing ∧ e.msgId = messageIdOf sourceId "fastmail" e.remoteId := by
  unfold fetchFastmailSource at h
  dsimp only at h
  split_ifs at h
  · cases h
  cases hcandidates : ruleCandidates server now lastSyncedAt address fetchLimit rules with
  | none =>
    rw [hcandidates] at h
    cases h
  | some candidates =>
    rw [hcandidates] at h
    dsimp only at h
    have hmem : e ∈ ((download server sourceId (pending existing candidates)).1.filter
        (·.1 = id)).map Prod.snd := by
      split_ifs at h <;> exact h
    obtain ⟨p, hp, rfl⟩ := List.mem_map.mp hmem
    obtain ⟨i, hi, raw, rfl⟩ := exists_of_mem_download (List.mem_filter.mp hp).1
    refine ⟨?_, rfl⟩
    unfold pending at hi
    obtain ⟨c, -, hc⟩ := List.mem_flatMap.mp hi
    obtain ⟨em, hem, rfl⟩ := List.mem_map.mp hc
    exact of_decide_eq_true (List.mem_filter.mp hem).2

end Fresh

end FinancialDashboard.Mail
