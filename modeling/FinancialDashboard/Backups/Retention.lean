import FinancialDashboard.Backups.Soundness

/-!
# What pruning keeps

* `prune_keeps`: a prune that no error interrupts keeps the names that `retain` keeps.
* `retained_last_twenty`: when the clock moves on between them, the backups that are kept are the
  last twenty that were made, and the listing has the newest first.
-/

namespace FinancialDashboard.Backups

open PyTime Transition

/-- The names that `_prune_old_backups` keeps. -/
def retain (names : List String) (currentBackupId : String) : List String :=
  names.filter (· ∉ staleBackups names currentBackupId)

/-! ### A prune by itself -/

section

variable [Platform] {s t : State} {w : Nat} {todo : List String}

/-- The steps of a removal that no error interrupts. -/
def Uninterrupted (w : Nat) (_ : State) (e : Event) : Prop :=
  e = .probe w ∨ e = .enter w ∨ (∃ child, e = .unlink w child) ∨ e = .rmdir w

/-- What is done of a list of removals. -/
structure Pruned (w : Nat) (todo : List String) (s t : State) : Prop where
  progress : ∃ done rest place, todo = done ++ rest ∧ t.workers w = .removing .prune rest place ∧
    t.names.keys = s.names.keys.filter (· ∉ done)

omit [Platform] in
theorem keys_pop (names : OrderedDict String Nat) (name : String) :
    (names.pop name).keys = names.keys.filter (· ≠ name) := by
  unfold OrderedDict.pop OrderedDict.keys
  rw [List.filter_map]
  rfl

omit [Platform] in
/-- One more name is done. -/
theorem filter_done {names done : List String} {name : String} :
    (names.filter (· ∉ done)).filter (· ≠ name) = names.filter (· ∉ done ++ [name]) := by
  rw [List.filter_filter]
  refine List.filter_congr fun n _ => ?_
  rw [Bool.eq_iff_iff, Bool.and_eq_true, decide_eq_true_eq, decide_eq_true_eq, decide_eq_true_eq,
    List.mem_append, List.mem_singleton, not_or]
  exact and_comm

theorem Pruned.step {u : State} {e : Event} (h : Pruned w todo s t) (hok : Uninterrupted w t e)
    (hs : backups.step t e = some u) : Pruned w todo s u := by
  change Backups.step t e = some u at hs
  obtain ⟨done, rest, place, htodo, hw, hkeys⟩ := h.progress
  rcases hok with rfl | rfl | ⟨child, rfl⟩ | rfl
  · simp only [Backups.step, hw] at hs
    split at hs
    next errand name more hworker =>
      cases hworker
      split_ifs at hs with hremove
      · cases hs
        exact ⟨done, _, _, htodo, workers_setWorker_self, hkeys⟩
      · exact absurd rfl hremove
    next => cases hs
  · simp only [Backups.step, hw] at hs
    split at hs
    next errand name more hworker =>
      cases hworker
      split at hs
      next inode hn =>
        cases hs
        exact ⟨done, _, _, htodo, workers_setWorker_self, hkeys⟩
      next hn =>
        cases hs
        refine ⟨done ++ [name], more, .looking, by rw [htodo, List.append_assoc]; rfl,
          workers_setWorker_self, ?_⟩
        -- A name that is gone already is done as well.
        have hgone : name ∉ t.names.keys := fun hm => OrderedDict.mem_keys_iff.mp hm hn
        rw [← filter_done, ← hkeys]
        refine (List.filter_eq_self.mpr fun n hm => ?_).symm
        have hne : n ≠ name := fun he => hgone (he ▸ hm)
        exact decide_eq_true hne
    next => cases hs
  · simp only [Backups.step, hw] at hs
    split at hs
    next errand more inode hworker =>
      split at hs
      next =>
        cases hs
        exact ⟨done, rest, place, htodo, hw, hkeys⟩
      next => cases hs
    next => cases hs
  · simp only [Backups.step, hw] at hs
    split at hs
    next errand name more inode hworker =>
      cases hworker
      split_ifs at hs
      cases hs
      refine ⟨done ++ [name], more, .looking, by rw [htodo, List.append_assoc]; rfl,
        workers_setWorker_self, ?_⟩
      exact (keys_pop t.names name).trans (by rw [hkeys, filter_done])
    next => cases hs

/-- **A prune that no error interrupts keeps what `retain` keeps.** -/
theorem prune_keeps {job : Job} {manifest : Manifest} {u : State}
    (hw : s.workers w = .attempt job (.published manifest))
    (hs : backups.step s (.call w) = some t) (hrun : backups.Run (Uninterrupted w) t u)
    (hend : u.workers w = .removing .prune [] .looking) :
    u.names.keys = retain s.names.keys job.backupId := by
  have hcall : t = s.setWorker w
      (.removing .prune (staleBackups s.names.keys job.backupId) .looking) := by
    change Backups.step s (.call w) = some t at hs
    simp only [Backups.step, hw, call] at hs
    exact (Option.some.inj hs).symm
  have hstart : Pruned w (staleBackups s.names.keys job.backupId) s t := by
    refine ⟨[], staleBackups s.names.keys job.backupId, .looking, rfl, ?_, ?_⟩
    · rw [hcall]
      exact workers_setWorker_self
    · rw [hcall]
      exact (List.filter_eq_self.mpr fun _ _ => decide_eq_true List.not_mem_nil).symm
  obtain ⟨done, rest, place, htodo, hw', hkeys⟩ :=
    (hrun.invariant (fun _ _ _ hinv hok hs => hinv.step hok hs) hstart).progress
  rw [hend, Worker.removing.injEq] at hw'
  obtain ⟨-, rfl, -⟩ := hw'
  rw [List.append_nil] at htodo
  rw [hkeys, ← htodo]
  rfl

end

/-! ### One backup after the other -/

variable {names : List String} {currentBackupId : String}

/-- Names in ascending order are sorted by turning them round. -/
theorem insertionSort_ge_of_sorted (h : names.Pairwise (· < ·)) :
    names.insertionSort (· ≥ ·) = names.reverse := by
  refine List.Perm.eq_of_pairwise' (List.pairwise_insertionSort _ _) ?_
    ((List.perm_insertionSort _ _).trans (List.reverse_perm _).symm)
  rw [List.pairwise_reverse]
  exact h.imp fun hlt => le_of_lt hlt

/-- With a newer backup all but the newest nineteen of the others go. -/
theorem retain_concat (hid : ∀ name ∈ names, isBackupId name = true)
    (h : (names ++ [currentBackupId]).Pairwise (· < ·)) :
    retain (names ++ [currentBackupId]) currentBackupId =
      (names ++ [currentBackupId]).drop (names.length - 19) := by
  obtain ⟨hsorted, -, hlt⟩ := List.pairwise_append.mp h
  have hne : ∀ name ∈ names, name ≠ currentBackupId := fun name hm =>
    ne_of_lt (hlt name hm currentBackupId (List.mem_singleton_self _))
  have hothers : (names ++ [currentBackupId]).filter
      (fun name => name ≠ currentBackupId && isBackupId name) = names := by
    rw [List.filter_append, List.filter_eq_self.mpr fun name hm => by
      rw [hid name hm, Bool.and_true, decide_eq_true (hne name hm)]]
    simp
  have hstale : staleBackups (names ++ [currentBackupId]) currentBackupId =
      (names.take (names.length - 19)).reverse := by
    unfold staleBackups maxRetainedBackups
    rw [hothers, insertionSort_ge_of_sorted hsorted, List.drop_reverse]
  have hnodup : (names.take (names.length - 19) ++ names.drop (names.length - 19)).Nodup := by
    rw [List.take_append_drop]
    exact hsorted.imp fun hlt => ne_of_lt hlt
  have hsplit : names.filter (· ∉ (names.take (names.length - 19)).reverse) =
      (names.take (names.length - 19) ++ names.drop (names.length - 19)).filter
        (· ∉ (names.take (names.length - 19)).reverse) := by
    rw [List.take_append_drop]
  unfold retain
  rw [hstale, List.drop_append_of_le_length (Nat.sub_le _ _), List.filter_append, hsplit,
    List.filter_append]
  have hgone : (names.take (names.length - 19)).filter
      (· ∉ (names.take (names.length - 19)).reverse) = [] :=
    List.filter_eq_nil_iff.mpr fun name hm => by simpa using hm
  have hkept : (names.drop (names.length - 19)).filter
      (· ∉ (names.take (names.length - 19)).reverse) = names.drop (names.length - 19) :=
    List.filter_eq_self.mpr fun name hm => decide_eq_true fun hr =>
      (List.nodup_append.mp hnodup).2.2 name (List.mem_reverse.mp hr) name hm rfl
  have hcurrent : [currentBackupId].filter (· ∉ (names.take (names.length - 19)).reverse) =
      [currentBackupId] :=
    List.filter_eq_self.mpr fun name hm => decide_eq_true fun hr => by
      obtain rfl := List.mem_singleton.mp hm
      exact hne name (List.mem_of_mem_take (List.mem_reverse.mp hr)) rfl
  rw [hgone, hkept, hcurrent, List.nil_append]

/-- The names after backups were made one after the other, each with its prune. -/
def publishAll (backupIds : List String) : List String :=
  backupIds.foldl (fun names backupId => retain (names ++ [backupId]) backupId) []

theorem publishAll_eq (hid : ∀ name ∈ names, isBackupId name = true)
    (h : names.Pairwise (· < ·)) :
    publishAll names = names.drop (names.length - maxRetainedBackups) := by
  induction names using List.reverseRecOn with
  | nil => rfl
  | append_singleton names backupId ih =>
    have hid' : ∀ name ∈ names, isBackupId name = true := fun name hm =>
      hid name (List.mem_append_left _ hm)
    have hkept := ih hid' (List.pairwise_append.mp h).1
    have hsub : (names.drop (names.length - maxRetainedBackups) ++ [backupId]).Sublist
        (names ++ [backupId]) := (List.drop_sublist _ _).append (List.Sublist.refl _)
    unfold publishAll at hkept ⊢
    rw [List.foldl_append, List.foldl_cons, List.foldl_nil, hkept,
      retain_concat (fun name hm => hid' name (List.mem_of_mem_drop hm)) (h.sublist hsub),
      ← List.drop_append_of_le_length (Nat.sub_le _ _), List.drop_drop]
    congr 1
    rw [List.length_drop, List.length_append, List.length_singleton]
    unfold maxRetainedBackups
    omega

/-- **The last twenty backups are kept**, and the listing has the newest first: for backups made
one after the other at later and later times. -/
theorem retained_last_twenty (creations : List (Int × Token))
    (hdate : ∀ creation ∈ creations, IsDate (dateOf creation.1))
    (hlater : creations.Pairwise fun a b => a.1 < b.1) :
    publishAll (creations.map fun creation => newBackupId creation.1 creation.2) =
        (creations.drop (creations.length - 20)).map
          (fun creation => newBackupId creation.1 creation.2) ∧
      listCandidates (publishAll (creations.map fun creation => newBackupId creation.1 creation.2)) =
        ((creations.drop (creations.length - 20)).map
          fun creation => newBackupId creation.1 creation.2).reverse := by
  have hid : ∀ name ∈ creations.map fun creation => newBackupId creation.1 creation.2,
      isBackupId name = true ∧ (backupIdCreatedAt name).isSome = true := by
    intro name hm
    obtain ⟨creation, hc, rfl⟩ := List.mem_map.mp hm
    refine ⟨isBackupId_newBackupId (hdate creation hc) creation.2, ?_⟩
    rw [backupIdCreatedAt_newBackupId (hdate creation hc)]
    rfl
  have hsorted : (creations.map fun creation => newBackupId creation.1 creation.2).Pairwise
      (· < ·) := by
    rw [List.pairwise_map]
    exact hlater.imp_of_mem fun {a b} ha hb hlt =>
      newBackupId_lt (hdate a ha) (hdate b hb) hlt a.2 b.2
  have hall := publishAll_eq (fun name hm => (hid name hm).1) hsorted
  rw [List.length_map, ← List.map_drop] at hall
  refine ⟨hall, ?_⟩
  have hkeep : ∀ name ∈ publishAll (creations.map fun creation => newBackupId creation.1 creation.2),
      (isBackupId name && (backupIdCreatedAt name).isSome) = true := by
    intro name hm
    rw [hall] at hm
    have hm' := hid name (List.map_subset _ (List.drop_subset _ creations) hm)
    rw [hm'.1, hm'.2, Bool.and_self]
  unfold listCandidates
  rw [List.filter_eq_self.mpr hkeep, hall]
  exact insertionSort_ge_of_sorted (hsorted.sublist ((List.drop_sublist _ _).map _))

/-- Twenty-one backups, a day apart. -/
theorem retained_last_twenty_days :
    publishAll ((List.range 21).map fun day : Nat => newBackupId (days (739000 + day)) sampleToken) =
      ((List.range 21).drop 1).map fun day : Nat => newBackupId (days (739000 + day)) sampleToken := by
  have hspec := (retained_last_twenty
    ((List.range 21).map fun day : Nat => (days (739000 + day), sampleToken))
    (by decide) (by decide)).1
  rw [List.map_map, List.length_map, List.length_range, ← List.map_drop, List.map_map] at hspec
  exact hspec

end FinancialDashboard.Backups
