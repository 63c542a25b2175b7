import FinancialDashboard.Backups.Soundness

/-!
# A backup is there whole or not at all

Wherever processes fail or stop, a directory that no removal has opened holds what its attempt
has come to, and one that has the name of a backup is complete.

* `Intact`: what is in the directories that no removal has opened.
* `published_complete`: so each of them that has a backup's name is listed, as verified.
-/

namespace FinancialDashboard.Backups

open PyTime Transition

variable [Platform]

/-! ### The invariant -/

/-- What the directory of an attempt holds at each stage. -/
def Holds (w : Nat) (d : Directory) : Stage → Prop
  | .made => d.activeLock = none ∧ d.backup = none ∧ d.manifest = none
  | .opened => d.activeLock = some none ∧ d.backup = none ∧ d.manifest = none
  | .locked => d.activeLock = some (some w) ∧ d.backup = none ∧ d.manifest = none
  | .copying | .copied | .synced | .checked | .hashed _ =>
    d.activeLock = some (some w) ∧ d.backup.isSome = true ∧ d.manifest = none
  | .writing _ | .written _ =>
    d.activeLock = some (some w) ∧ d.backup.isSome = true ∧ d.manifest.isSome = true
  | .unlocked _ => d.activeLock = some none ∧ d.backup.isSome = true ∧ d.manifest.isSome = true
  | .bare _ | .cleared _ =>
    d.activeLock = none ∧ d.backup.isSome = true ∧ d.manifest.isSome = true
  | .drawn | .published _ => True

structure Intact (s : State) : Prop where
  directory : ∀ name inode, s.names.get? name = some inode → ∃ d, s.directories inode = some d
  inside : ∀ w errand todo inode, s.workers w = .removing errand todo (.inside inode) →
    inode ∈ s.entered
  attempt : ∀ w job stage inode d, s.workers w = .attempt job stage →
    s.lookup job.temporaryName = some (inode, d) → inode ∉ s.entered → Holds w d stage
  published : ∀ name inode d, isBackupId name = true → s.lookup name = some (inode, d) →
    inode ∉ s.entered → d.backup.isSome = true ∧ d.manifest.isSome = true

variable {s s' : State} {w v inode : Nat} {d d' : Directory} {job : Job} {stage stage' : Stage}
  {name : String} {worker : Worker}

/-! ### Steps that leave such directories -/

/-- A step that leaves the directories no removal has opened. -/
structure Calm (s s' : State) : Prop where
  names : ∀ name inode, s'.names.get? name = some inode → s.names.get? name = some inode
  kept : ∀ inode d, s.directories inode = some d → ∃ d', s'.directories inode = some d' ∧
    (inode ∉ s'.entered → d' = d)
  workers : ∀ w job stage, s'.workers w = .attempt job stage → s.workers w = .attempt job stage
  inside : ∀ w errand todo inode, s'.workers w = .removing errand todo (.inside inode) →
    inode ∈ s'.entered
  entered : ∀ inode ∈ s.entered, inode ∈ s'.entered

omit [Platform] in
theorem Calm.lookup (c : Calm s s') (h : Intact s) (hl : s'.lookup name = some (inode, d'))
    (hne : inode ∉ s'.entered) : s.lookup name = some (inode, d') := by
  obtain ⟨hn, hd⟩ := lookup_eq_some.mp hl
  obtain ⟨d, hd₀⟩ := h.directory name inode (c.names name inode hn)
  obtain ⟨d₁, hd₁, heq⟩ := c.kept inode d hd₀
  obtain rfl : d' = d₁ := Option.some.inj (hd.symm.trans hd₁)
  rw [heq hne]
  exact lookup_eq_some.mpr ⟨c.names name inode hn, hd₀⟩

omit [Platform] in
theorem Intact.calm (h : Intact s) (c : Calm s s') : Intact s' where
  directory name inode hn := by
    obtain ⟨d, hd⟩ := h.directory name inode (c.names name inode hn)
    obtain ⟨d', hd', -⟩ := c.kept inode d hd
    exact ⟨d', hd'⟩
  inside := c.inside
  attempt w job stage inode d hw hl hne :=
    h.attempt w job stage inode d (c.workers w job stage hw) (c.lookup h hl hne)
      fun hm => hne (c.entered inode hm)
  published name inode d hid hl hne :=
    h.published name inode d hid (c.lookup h hl hne) fun hm => hne (c.entered inode hm)

omit [Platform] in
theorem calm_setWorker (h : Intact s) (ha : ∀ job stage, worker ≠ .attempt job stage)
    (hi : ∀ errand todo inode, worker = .removing errand todo (.inside inode) →
      inode ∈ s.entered) : Calm s (s.setWorker w worker) where
  names _ _ hn := hn
  kept _ d hd := ⟨d, hd, fun _ => rfl⟩
  workers := (quiet_setWorker ha).workers
  inside v errand todo inode hv := by
    by_cases he : v = w
    · subst he
      rw [workers_setWorker_self] at hv
      exact hi errand todo inode hv
    · rw [workers_setWorker_of_ne he] at hv
      exact h.inside v errand todo inode hv
  entered _ hm := hm

omit [Platform] in
/-- The locks of a process that has no attempt any more. -/
theorem Intact.release (h : Intact s) (ha : ∀ job stage, worker ≠ .attempt job stage)
    (hi : ∀ errand todo inode, worker ≠ .removing errand todo (.inside inode)) :
    Intact ((s.releaseLocks w).setWorker w worker) where
  directory name inode hn := by
    obtain ⟨d, hd⟩ := h.directory name inode hn
    exact ⟨d.release w, Option.map_eq_some_iff.mpr ⟨d, hd, rfl⟩⟩
  inside v errand todo inode hv := by
    by_cases he : v = w
    · subst he
      rw [workers_setWorker_self] at hv
      exact absurd hv (hi errand todo inode)
    · rw [workers_setWorker_of_ne he] at hv
      exact h.inside v errand todo inode hv
  attempt v job stage inode d' hv hl hne := by
    have hvw : v ≠ w := by
      rintro rfl
      rw [workers_setWorker_self] at hv
      exact ha job stage hv
    rw [workers_setWorker_of_ne hvw] at hv
    obtain ⟨hn, hd'⟩ := lookup_eq_some.mp hl
    obtain ⟨d, hd, rfl⟩ := Option.map_eq_some_iff.mp hd'
    have hok := h.attempt v job stage inode d hv (lookup_eq_some.mpr ⟨hn, hd⟩) hne
    have hkeep : d.activeLock ≠ some (some w) → d.release w = d := fun hlock => if_neg hlock
    cases stage with
    | drawn | published => trivial
    | _ =>
      rw [hkeep (by rw [hok.1]; simp [hvw])]
      exact hok
  published name inode d' hid hl hne := by
    obtain ⟨hn, hd'⟩ := lookup_eq_some.mp hl
    obtain ⟨d, hd, rfl⟩ := Option.map_eq_some_iff.mp hd'
    have hok := h.published name inode d hid (lookup_eq_some.mpr ⟨hn, hd⟩) hne
    unfold Directory.release
    split_ifs
    · exact hok
    · exact hok

/-! ### Steps of an attempt -/

omit [Platform] in
theorem inside_setWorker_attempt (h : ∀ w errand todo inode,
    s.workers w = .removing errand todo (.inside inode) → inode ∈ s.entered) :
    ∀ v errand todo inode, (s.setWorker w (.attempt job stage)).workers v = .removing errand todo (.inside inode) →
      inode ∈ s.entered := by
  intro v errand todo inode hv
  by_cases he : v = w
  · subst he
    rw [workers_setWorker_self] at hv
    cases hv
  · rw [workers_setWorker_of_ne he] at hv
    exact h v errand todo inode hv

theorem Intact.advance (h : Intact s) (hinv : Inv s) (hw : s.workers w = .attempt job stage)
    (hl : s.lookup job.temporaryName = some (inode, d))
    (hok : inode ∉ s.entered → Holds w d' stage') :
    Intact ((s.setDirectory inode d').setWorker w (.attempt job stage')) := by
  obtain ⟨hn, hd⟩ := lookup_eq_some.mp hl
  obtain ⟨hothers, hbackups⟩ := hinv.apart hw hn
  refine ⟨fun name i hi => ?_, inside_setWorker_attempt h.inside, fun v job' st i e hv he hne => ?_,
    fun name i e hid he hne => ?_⟩
  · by_cases heq : i = inode
    · subst heq
      exact ⟨d', Function.update_self ..⟩
    · obtain ⟨e, he⟩ := h.directory name i hi
      exact ⟨e, (Function.update_of_ne heq ..).trans he⟩
  · rw [lookup_setWorker, lookup_setDirectory] at he
    obtain ⟨hi, ⟨rfl, rfl⟩ | ⟨hne', he⟩⟩ := he
    · rcases attempt_setWorker.mp hv with ⟨rfl, rfl, rfl⟩ | ⟨hvw, hv'⟩
      · exact hok hne
      · exact absurd hi (hothers v job' st hvw hv')
    · rcases attempt_setWorker.mp hv with ⟨rfl, rfl, rfl⟩ | ⟨-, hv'⟩
      · exact absurd (Option.some.inj (hi.symm.trans hn)) hne'
      · exact h.attempt v job' st i e hv' (lookup_eq_some.mpr ⟨hi, he⟩) hne
  · rw [lookup_setWorker, lookup_setDirectory] at he
    obtain ⟨hi, ⟨rfl, rfl⟩ | ⟨-, he⟩⟩ := he
    · exact absurd hi (hbackups name hid)
    · exact h.published name i e hid (lookup_eq_some.mpr ⟨hi, he⟩) hne

omit [Platform] in
theorem Intact.advance_same (h : Intact s) (hok : ∀ inode d,
    s.lookup job.temporaryName = some (inode, d) → inode ∉ s.entered → Holds w d stage') :
    Intact (s.setWorker w (.attempt job stage')) := by
  refine ⟨h.directory, inside_setWorker_attempt h.inside, fun v job' st i e hv he hne => ?_, h.published⟩
  rcases attempt_setWorker.mp hv with ⟨rfl, rfl, rfl⟩ | ⟨-, hv'⟩
  · exact hok i e he hne
  · exact h.attempt v job' st i e hv' he hne

theorem Intact.write (h : Intact s) (hinv : Inv s) (hw : s.workers w = .attempt job stage)
    (hl : s.lookup job.temporaryName = some (inode, d))
    (hok : inode ∉ s.entered → Holds w d' stage) : Intact (s.setDirectory inode d') := by
  have hadvance := h.advance hinv hw hl hok
  rwa [setWorker_self (s := s.setDirectory inode d') hw] at hadvance

theorem Intact.mkdir (h : Intact s) (hinv : Inv s) (hw : s.workers w = .attempt job .drawn) :
    Intact ({ s with
      names := s.names.set job.temporaryName s.inodes
      directories := Function.update s.directories s.inodes (some (.made s.now))
      inodes := s.inodes + 1 }.setWorker w (.attempt job .made)) := by
  have hold : ∀ {name i}, name ≠ job.temporaryName →
      (s.names.set job.temporaryName s.inodes).get? name = some i →
      s.names.get? name = some i ∧ i ≠ s.inodes := by
    intro name i hne hi
    rw [OrderedDict.get?_set_of_ne hne] at hi
    exact ⟨hi, Nat.ne_of_lt (hinv.inode_lt name i hi)⟩
  have hdir : ∀ {name i e}, name ≠ job.temporaryName →
      (s.names.set job.temporaryName s.inodes).get? name = some i →
      Function.update s.directories s.inodes (some (.made s.now)) i = some e →
      s.lookup name = some (i, e) := by
    intro name i e hne hi he
    obtain ⟨hi, hlt⟩ := hold hne hi
    rw [Function.update_of_ne hlt] at he
    exact lookup_eq_some.mpr ⟨hi, he⟩
  refine ⟨fun name i hi => ?_, inside_setWorker_attempt h.inside, fun v job' st i e hv he hne => ?_,
    fun name i e hid he hne => ?_⟩
  · by_cases heq : i = s.inodes
    · subst heq
      exact ⟨.made s.now, Function.update_self ..⟩
    · have hne : name ≠ job.temporaryName := by
        rintro rfl
        have hself : (s.names.set job.temporaryName s.inodes).get? job.temporaryName = some i := hi
        rw [OrderedDict.get?_set_self] at hself
        exact heq (Option.some.inj hself).symm
      obtain ⟨e, he⟩ := h.directory name i (hold hne hi).1
      exact ⟨e, (Function.update_of_ne heq ..).trans he⟩
  · obtain ⟨hi, he'⟩ := lookup_eq_some.mp he
    rcases attempt_setWorker.mp hv with ⟨rfl, rfl, rfl⟩ | ⟨hvw, hv'⟩
    · have hself : (s.names.set job'.temporaryName s.inodes).get? job'.temporaryName = some i := hi
      rw [OrderedDict.get?_set_self] at hself
      obtain rfl : s.inodes = i := Option.some.inj hself
      have hmade : Function.update s.directories s.inodes (some (.made s.now)) s.inodes = some e := he'
      rw [Function.update_self] at hmade
      cases hmade
      exact ⟨rfl, rfl, rfl⟩
    · have hne' : job'.temporaryName ≠ job.temporaryName := fun heq =>
        hvw (hinv.distinct v w job' job st .drawn hv' hw heq)
      exact h.attempt v job' st i e hv' (hdir hne' hi he') hne
  · obtain ⟨hi, he'⟩ := lookup_eq_some.mp he
    have hne' : name ≠ job.temporaryName := by
      rintro rfl
      rw [not_isBackupId_of_temporary (hinv.job w job .drawn hw).temporary] at hid
      cases hid
    exact h.published name i e hid (hdir hne' hi he') hne

theorem Intact.rename {manifest : Manifest} (h : Intact s) (hinv : Inv s)
    (hw : s.workers w = .attempt job (.cleared manifest))
    (hl : s.lookup job.temporaryName = some (inode, d)) :
    Intact ({ s with names := (s.names.pop job.temporaryName).set job.backupId inode }.setWorker w
      (.attempt job (.published manifest))) := by
  obtain ⟨hn, hd⟩ := lookup_eq_some.mp hl
  have hold : ∀ {name i}, name ≠ job.backupId →
      ((s.names.pop job.temporaryName).set job.backupId inode).get? name = some i →
      s.names.get? name = some i := by
    intro name i hne hi
    rw [OrderedDict.get?_set_of_ne hne] at hi
    exact OrderedDict.get?_of_get?_pop hi
  have hnew : ∀ {i}, ((s.names.pop job.temporaryName).set job.backupId inode).get? job.backupId =
      some i → i = inode := by
    intro i hi
    rw [OrderedDict.get?_set_self] at hi
    exact (Option.some.inj hi).symm
  refine ⟨fun name i hi => ?_, inside_setWorker_attempt h.inside, fun v job' st i e hv he hne => ?_,
    fun name i e hname he hne => ?_⟩
  · by_cases heq : name = job.backupId
    · subst heq
      obtain rfl := hnew hi
      exact ⟨d, hd⟩
    · exact h.directory name i (hold heq hi)
  · rcases attempt_setWorker.mp hv with ⟨rfl, rfl, rfl⟩ | ⟨-, hv'⟩
    · trivial
    · obtain ⟨hi, he'⟩ := lookup_eq_some.mp he
      have hne' : job'.temporaryName ≠ job.backupId := by
        intro heq
        have hid := (hinv.job w job _ hw).backupId
        rw [← heq, not_isBackupId_of_temporary (hinv.job v job' st hv').temporary] at hid
        cases hid
      exact h.attempt v job' st i e hv' (lookup_eq_some.mpr ⟨hold hne' hi, he'⟩) hne
  · obtain ⟨hi, he'⟩ := lookup_eq_some.mp he
    by_cases heq : name = job.backupId
    · subst heq
      obtain rfl := hnew hi
      obtain rfl : d = e := Option.some.inj (hd.symm.trans he')
      have hok : d.activeLock = none ∧ d.backup.isSome = true ∧ d.manifest.isSome = true :=
        h.attempt w job _ i d hw hl hne
      exact hok.2
    · exact h.published name i e hname (lookup_eq_some.mpr ⟨hold heq hi, he'⟩) hne

/-! ### Runs -/

/-- What a call of an attempt does to its own directory. -/
theorem Intact.call (h : Intact s) (hinv : Inv s) (hw : s.workers w = .attempt job stage)
    (hs : call s w job stage = some s') : Intact s' := by
  have hok : ∀ i e, s.lookup job.temporaryName = some (i, e) → i ∉ s.entered → Holds w e stage :=
    fun i e hl hne => h.attempt w job stage i e hw hl hne
  cases stage with
  | drawn =>
    simp only [Backups.call, Option.ite_none_right_eq_some, Option.some.injEq] at hs
    obtain ⟨-, rfl⟩ := hs
    exact h.mkdir hinv hw
  | made =>
    simp only [Backups.call] at hs
    split at hs
    next i e hl =>
      simp only [Option.ite_none_right_eq_some, Option.some.injEq] at hs
      obtain ⟨-, rfl⟩ := hs
      exact h.advance hinv hw hl fun hne => ⟨rfl, (hok i e hl hne).2⟩
    next => cases hs
  | opened =>
    simp only [Backups.call] at hs
    split at hs
    next i e hl =>
      split at hs
      next hlock =>
        cases hs
        refine h.advance_same fun i' e' hl' hne => ?_
        obtain ⟨rfl, rfl⟩ := Prod.mk.inj (Option.some.inj (hl'.symm.trans hl))
        have hheld := (hok i' e' hl hne).1
        rw [hlock] at hheld
        cases hheld
      next =>
        cases hs
        exact h.advance hinv hw hl fun hne => ⟨rfl, (hok i e hl hne).2⟩
      next => cases hs
    next hl =>
      cases hs
      refine h.advance_same fun i e he _ => ?_
      rw [hl] at he
      cases he
  | locked =>
    simp only [Backups.call] at hs
    split at hs
    next i e hl =>
      simp only [Option.ite_none_right_eq_some, Option.some.injEq] at hs
      obtain ⟨-, rfl⟩ := hs
      exact h.advance hinv hw hl fun hne => ⟨(hok i e hl hne).1, rfl, (hok i e hl hne).2.2⟩
    next => cases hs
  | copying =>
    cases hs
    exact h.advance_same hok
  | copied =>
    simp only [Backups.call] at hs
    split at hs
    next i e hl =>
      simp only [Option.ite_none_right_eq_some, Option.some.injEq] at hs
      obtain ⟨-, rfl⟩ := hs
      exact h.advance hinv hw hl fun hne => hok i e hl hne
    next => cases hs
  | synced =>
    simp only [Backups.call] at hs
    split at hs
    next i e hl =>
      simp only [Option.ite_none_right_eq_some, Option.some.injEq] at hs
      obtain ⟨-, rfl⟩ := hs
      exact h.advance_same hok
    next => cases hs
  | checked =>
    simp only [Backups.call] at hs
    split at hs
    next i e hl =>
      split at hs
      next =>
        simp only [Option.ite_none_right_eq_some, Option.some.injEq] at hs
        obtain ⟨-, rfl⟩ := hs
        exact h.advance hinv hw hl fun hne => hok i e hl hne
      next => cases hs
    next => cases hs
  | hashed manifest =>
    simp only [Backups.call] at hs
    split at hs
    next i e hl =>
      simp only [Option.ite_none_right_eq_some, Option.some.injEq] at hs
      obtain ⟨-, rfl⟩ := hs
      exact h.advance hinv hw hl fun hne => ⟨(hok i e hl hne).1, (hok i e hl hne).2.1, rfl⟩
    next => cases hs
  | writing manifest =>
    simp only [Backups.call] at hs
    split at hs
    next i e hl =>
      cases hs
      refine h.advance hinv hw hl fun hne => ⟨(hok i e hl hne).1, (hok i e hl hne).2.1, ?_⟩
      rw [Option.isSome_map]
      exact (hok i e hl hne).2.2
    next hl =>
      cases hs
      refine h.advance_same fun i e he _ => ?_
      rw [hl] at he
      cases he
  | written manifest =>
    simp only [Backups.call] at hs
    split at hs
    next i e hl =>
      cases hs
      refine h.advance hinv hw hl fun hne => ?_
      have hheld := hok i e hl hne
      have hrelease : e.release w = { e with activeLock := some none } := if_pos hheld.1
      rw [hrelease]
      exact ⟨rfl, hheld.2⟩
    next hl =>
      cases hs
      refine h.advance_same fun i e he _ => ?_
      rw [hl] at he
      cases he
  | unlocked manifest =>
    simp only [Backups.call] at hs
    split at hs
    next i e hl =>
      simp only [Option.ite_none_right_eq_some, Option.some.injEq] at hs
      obtain ⟨-, rfl⟩ := hs
      exact h.advance hinv hw hl fun hne => ⟨rfl, (hok i e hl hne).2⟩
    next => cases hs
  | bare manifest =>
    simp only [Backups.call, Option.ite_none_right_eq_some, Option.some.injEq] at hs
    obtain ⟨-, rfl⟩ := hs
    exact h.advance_same hok
  | cleared manifest =>
    simp only [Backups.call] at hs
    split at hs
    next i e hl =>
      simp only [Option.ite_none_right_eq_some, Option.some.injEq] at hs
      obtain ⟨-, rfl⟩ := hs
      exact h.rename hinv hw hl
    next => cases hs
  | published manifest =>
    cases hs
    exact h.calm (calm_setWorker h (fun _ _ => Worker.noConfusion)
      fun _ _ _ hc => by cases hc)

omit [Platform] in
/-- A step of a removal. -/
theorem Intact.setWorker (h : Intact s) (ha : ∀ job stage, worker ≠ .attempt job stage)
    (hi : ∀ errand todo inode, worker ≠ .removing errand todo (.inside inode)) :
    Intact (s.setWorker w worker) :=
  h.calm (calm_setWorker h ha fun errand todo inode hc => absurd hc (hi errand todo inode))

omit [Platform] in
/-- What a removal opens is no longer among the directories that are kept. -/
theorem Intact.enter (h : Intact s) {errand : Errand} {todo : List String} :
    Intact ({ s with entered := inode :: s.entered }.setWorker w
      (.removing errand todo (.inside inode))) := by
  have hopen : Intact { s with entered := inode :: s.entered } := h.calm
    ⟨fun _ _ hn => hn, fun _ d hd => ⟨d, hd, fun _ => rfl⟩, fun _ _ _ hv => hv,
      fun v errand todo i hv => List.mem_cons_of_mem _ (h.inside v errand todo i hv),
      fun _ hm => List.mem_cons_of_mem _ hm⟩
  refine hopen.calm (calm_setWorker hopen (fun _ _ => Worker.noConfusion) fun errand' todo' i hc => ?_)
  cases hc
  exact List.mem_cons_self

omit [Platform] in
/-- A removal changes what it has opened. -/
theorem Intact.unlink (h : Intact s) (hin : inode ∈ s.entered) :
    Intact (s.setDirectory inode d') := by
  refine h.calm ⟨fun _ _ hn => hn, fun i d hd => ?_, fun _ _ _ hv => hv, h.inside, fun _ hm => hm⟩
  by_cases heq : i = inode
  · subst heq
    exact ⟨d', Function.update_self .., fun hne => absurd hin hne⟩
  · exact ⟨d, (Function.update_of_ne heq ..).trans hd, fun _ => rfl⟩

omit [Platform] in
theorem Intact.draw (h : Intact s) {drawn : List String} : Intact { s with drawn := drawn } :=
  h.calm ⟨fun _ _ hn => hn, fun _ d hd => ⟨d, hd, fun _ => rfl⟩, fun _ _ _ hv => hv, h.inside,
    fun _ hm => hm⟩

theorem Intact.step {e : Event} (h : Intact s) (hinv : Inv s)
    (hs : backups.step s e = some s') : Intact s' := by
  change Backups.step s e = some s' at hs
  cases e with
  | call w =>
    simp only [Backups.step] at hs
    split at hs
    next job stage hw => exact h.call hinv hw hs
    next => cases hs
  | draw w createdAt token temporaryToken =>
    simp only [Backups.step] at hs
    split at hs
    next =>
      split_ifs at hs
      · cases hs
        exact h.draw.advance_same fun _ _ _ _ => trivial
      · cases hs
        exact h.setWorker (fun _ _ => Worker.noConfusion) fun _ _ _ => Worker.noConfusion
    next => cases hs
  | copy w bytes =>
    simp only [Backups.step] at hs
    split at hs
    next job hw =>
      split at hs
      next i e hl =>
        cases hs
        refine h.write hinv hw hl fun hne => ?_
        have hok := h.attempt w job _ i e hw hl hne
        exact ⟨hok.1, rfl, hok.2.2⟩
      next => cases hs
    next => cases hs
  | sidecars w names =>
    simp only [Backups.step] at hs
    split at hs
    next job hw =>
      split at hs
      next i e hl =>
        cases hs
        exact h.write hinv hw hl fun hne => h.attempt w job _ i e hw hl hne
      next => cases hs
    next job hw =>
      split at hs
      next i e hl =>
        cases hs
        exact h.write hinv hw hl fun hne => h.attempt w job _ i e hw hl hne
      next => cases hs
    next => cases hs
  | flush w n =>
    simp only [Backups.step] at hs
    split at hs
    next job manifest hw =>
      split at hs
      next i e hl =>
        cases hs
        refine h.write hinv hw hl fun hne => ?_
        have hok := h.attempt w job _ i e hw hl hne
        exact ⟨hok.1, hok.2.1, by rw [Option.isSome_map]; exact hok.2.2⟩
      next => cases hs
    next => cases hs
  | start w =>
    simp only [Backups.step] at hs
    split at hs
    next =>
      cases hs
      exact h.setWorker (fun _ _ => Worker.noConfusion) fun _ _ _ hc => by cases hc
    next => cases hs
  | probe w =>
    simp only [Backups.step] at hs
    split at hs
    next =>
      split_ifs at hs <;> cases hs <;>
        exact h.setWorker (fun _ _ => Worker.noConfusion) fun _ _ _ hc => by cases hc
    next => cases hs
  | enter w =>
    simp only [Backups.step] at hs
    split at hs
    next =>
      split at hs
      next =>
        cases hs
        exact h.enter
      next =>
        cases hs
        exact h.setWorker (fun _ _ => Worker.noConfusion) fun _ _ _ hc => by cases hc
    next => cases hs
  | unlink w child =>
    simp only [Backups.step] at hs
    split at hs
    next errand todo i hw =>
      split at hs
      next =>
        cases hs
        exact h.unlink (h.inside w errand todo i hw)
      next => cases hs
    next => cases hs
  | rmdir w =>
    simp only [Backups.step] at hs
    split at hs
    next errand name rest i hw =>
      split_ifs at hs
      cases hs
      have hpop : Intact { s with names := s.names.pop name } := h.calm
        ⟨fun _ _ hn => OrderedDict.get?_of_get?_pop hn, fun _ d hd => ⟨d, hd, fun _ => rfl⟩,
          fun _ _ _ hv => hv, h.inside, fun _ hm => hm⟩
      exact hpop.setWorker (fun _ _ => Worker.noConfusion) fun _ _ _ hc => by cases hc
    next => cases hs
  | giveUp w =>
    simp only [Backups.step] at hs
    split at hs
    next =>
      cases hs
      exact h.setWorker (fun _ _ => Worker.noConfusion) fun _ _ _ hc => by cases hc
    next => cases hs
  | finish w =>
    simp only [Backups.step] at hs
    split at hs
    next =>
      cases hs
      exact h.setWorker (fun _ _ => Worker.noConfusion) fun _ _ _ => Worker.noConfusion
    next =>
      cases hs
      exact h.setWorker (fun _ _ => Worker.noConfusion) fun _ _ _ => Worker.noConfusion
    next => cases hs
  | raise w =>
    simp only [Backups.step] at hs
    split at hs
    next =>
      cases hs
      exact h.release (fun _ _ => Worker.noConfusion) fun _ _ _ hc => by cases hc
    next => cases hs
  | crash w =>
    cases hs
    exact h.release (fun _ _ => Worker.noConfusion) fun _ _ _ => Worker.noConfusion
  | tick n =>
    cases hs
    exact h.calm ⟨fun _ _ hn => hn, fun _ d hd => ⟨d, hd, fun _ => rfl⟩, fun _ _ _ hv => hv,
      h.inside, fun _ hm => hm⟩

omit [Platform] in
theorem intact_initial (now : Int) : Intact (.initial now) where
  directory _ _ hn := absurd hn (Option.some_ne_none _).symm
  inside _ _ _ _ hw := Worker.noConfusion hw
  attempt _ _ _ _ _ hw := Worker.noConfusion hw
  published _ _ _ _ hl := absurd (lookup_eq_some.mp hl).1 (Option.some_ne_none _).symm

theorem intact_run {now : Int} (h : backups.Run FreshDraws (.initial now) s) :
    Inv s ∧ Intact s :=
  h.invariant (I := fun s => Inv s ∧ Intact s)
    (fun _ _ _ hinv hok hs => ⟨hinv.1.step hok hs, hinv.2.step hinv.1 hs⟩)
    ⟨inv_initial now, intact_initial now⟩

/-- **A backup is published whole**: at any time of any run, a directory that has the name of a
backup is listed as verified, with the time in its name, unless some removal has opened it. -/
theorem published_complete {now : Int} (h : backups.Run FreshDraws (.initial now) s) :
    ∀ name inode, isBackupId name = true → s.names.get? name = some inode → inode ∉ s.entered →
      name ∈ listCandidates s.names.keys ∧ ∃ metadata, manifestMetadata s name = some metadata ∧
        metadata.backupId = name ∧ metadata.status = .verified := by
  intro name inode hid hn hne
  obtain ⟨hinv, hintact⟩ := intact_run h
  obtain ⟨d, hd⟩ := hintact.directory name inode hn
  have hl : s.lookup name = some (inode, d) := lookup_eq_some.mpr ⟨hn, hd⟩
  obtain ⟨job, manifest, hjob, hat, hwritten, -⟩ := hinv.finished name inode d hid hl
  obtain ⟨hbackup, hmanifest⟩ := hintact.published name inode d hid hl hne
  obtain ⟨bytes, hb⟩ := Option.isSome_iff_exists.mp hbackup
  obtain ⟨payload, hp⟩ := Option.isSome_iff_exists.mp hmanifest
  have hname : manifest.backupId = name := hwritten.backupId.trans hjob
  have hcreated : backupIdCreatedAt manifest.backupId = some manifest.createdAt := by
    rw [hname, hwritten.createdAt]
    exact hat
  have hload : Platform.load payload = some manifest := by
    rw [hwritten.payload payload hp]
    refine Platform.load_dump manifest ⟨?_, hcreated, hwritten.size_pos, hwritten.isDigest⟩
    rw [hname]
    exact hid
  have hbounded : ¬manifestMaxBytes < payload.length := by
    rw [hwritten.payload payload hp]
    exact not_lt.mpr hwritten.bounded
  refine ⟨mem_listCandidates.mpr ⟨OrderedDict.mem_keys_iff.mpr (by rw [hn]; exact Option.some_ne_none _),
    hid, by rw [hat]; rfl⟩, ⟨manifest.backupId, manifest.createdAt, manifest.sizeBytes,
      manifest.sha256, backupFileStatus d.backup manifest.sizeBytes⟩, ?_, hname, ?_⟩
  · unfold manifestMetadata
    simp only [hl, hp, hload, Option.bind_eq_bind, Option.bind_some, if_neg hbounded,
      if_pos (And.intro hname hcreated)]
  · rw [hb]
    exact if_pos (hwritten.sound bytes hb).size.symm

omit [Platform] in
theorem published_complete_publish :
    let _ := plainPlatform
    ∃ s : State, s.names.get? "20240526T000000000000Z-0123456789abcdef" = some 0 ∧ s.entered = [] ∧
      ∃ metadata, manifestMetadata s "20240526T000000000000Z-0123456789abcdef" = some metadata ∧
        metadata.status = .verified := by
  let _ := plainPlatform
  have hmeets : backups.Meets FreshDraws (.initial 0) (copyEvents ++ publishEvents) := by
    decide +kernel
  have hview : (backups.exec (.initial 0) (copyEvents ++ publishEvents)).map
      (fun s => (s.names.get? "20240526T000000000000Z-0123456789abcdef", s.entered)) =
        some (some 0, []) := by decide +kernel
  obtain ⟨s, -, hrun, hlast⟩ := System.run_of_view hmeets hview
  obtain ⟨hn, hentered⟩ := Prod.mk.inj hlast
  obtain ⟨-, metadata, hmeta, -, hverified⟩ := published_complete hrun _ 0 (by decide +kernel) hn
    (by rw [hentered]; exact List.not_mem_nil)
  exact ⟨s, hn, hentered, metadata, hmeta, hverified⟩

end FinancialDashboard.Backups
