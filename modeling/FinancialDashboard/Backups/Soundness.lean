import FinancialDashboard.Backups.Protocol

/-!
# What the listing calls verified

The listing compares sizes only and trusts the checksum of the attempt that made a backup.

* `Inv`: what holds of the files at any time, however processes interleave, fail and stop.
* `verified_sound`: so the bytes of a backup that is listed as verified have the hash that is
  listed, and passed the check.
-/

namespace FinancialDashboard.Backups

open PyTime Transition

variable [Platform]

/-! ### The invariant -/

/-- The manifest says what the bytes are, and they passed the check. -/
structure Sound (manifest : Manifest) (bytes : Bytes) : Prop where
  size : manifest.sizeBytes = bytes.length
  sha256 : manifest.sha256 = Platform.sha256 bytes
  quickCheck : Platform.quickCheck bytes = true

/-- What a directory that was hashed holds, as far as it is still there. -/
structure Hashed (job : Job) (manifest : Manifest) (d : Directory) : Prop where
  backupId : manifest.backupId = job.backupId
  createdAt : manifest.createdAt = job.createdAt
  size_pos : 0 < manifest.sizeBytes
  isDigest : isBackupSha256 manifest.sha256 = true
  alone : d.sidecars = []
  sound : ∀ bytes, d.backup = some bytes → Sound manifest bytes

/-- The same of one whose manifest was written. -/
structure Written (job : Job) (manifest : Manifest) (d : Directory) : Prop
    extends Hashed job manifest d where
  bounded : (Platform.dump manifest).length ≤ manifestMaxBytes
  payload : ∀ payload, d.manifest = some payload → payload = Platform.dump manifest

/-- What an attempt has made sure of. -/
def StageOk (job : Job) (d : Directory) : Stage → Prop
  | .checked => ∀ bytes, d.backup = some bytes → Platform.quickCheck bytes = true
  | .hashed manifest => Hashed job manifest d
  | .writing manifest =>
    Hashed job manifest d ∧ (Platform.dump manifest).length ≤ manifestMaxBytes
  | .written manifest | .unlocked manifest => Written job manifest d
  | .bare manifest | .cleared manifest => Written job manifest d ∧ d.activeLock = none
  | _ => True

/-- What is left of a finished backup is what was made. -/
def Finished (name : String) (d : Directory) : Prop :=
  ∃ job manifest, job.backupId = name ∧ backupIdCreatedAt name = some job.createdAt ∧
    Written job manifest d ∧ d.activeLock = none

/-- The names of an attempt. -/
structure JobOk (drawn : List String) (job : Job) : Prop where
  temporary : isTemporaryName job.temporaryName = true
  backupId : isBackupId job.backupId = true
  createdAt : backupIdCreatedAt job.backupId = some job.createdAt
  drawn : job.temporaryName ∈ drawn

structure Inv (s : State) : Prop where
  inode_lt : ∀ name inode, s.names.get? name = some inode → inode < s.inodes
  inode_inj : ∀ name name' inode, s.names.get? name = some inode →
    s.names.get? name' = some inode → name = name'
  job : ∀ w job stage, s.workers w = .attempt job stage → JobOk s.drawn job
  distinct : ∀ w v job job' stage stage', s.workers w = .attempt job stage →
    s.workers v = .attempt job' stage' → job.temporaryName = job'.temporaryName → w = v
  attempt : ∀ w job stage inode d, s.workers w = .attempt job stage →
    s.lookup job.temporaryName = some (inode, d) → StageOk job d stage
  finished : ∀ name inode d, isBackupId name = true → s.lookup name = some (inode, d) →
    Finished name d

/-! ### Looking up -/

variable {s s' : State} {w v inode inode' : Nat} {d d' : Directory} {job : Job} {stage stage' : Stage}
  {name : String} {worker : Worker}

omit [Platform] in
theorem lookup_eq_some : s.lookup name = some (inode, d) ↔
    s.names.get? name = some inode ∧ s.directories inode = some d := by
  unfold State.lookup
  simp only [Option.bind_eq_bind, Option.bind_eq_some_iff, Option.pure_def, Option.some.injEq,
    Prod.mk.injEq]
  constructor
  · rintro ⟨i, hn, e, hd, rfl, rfl⟩
    exact ⟨hn, hd⟩
  · rintro ⟨hn, hd⟩
    exact ⟨inode, hn, d, hd, rfl, rfl⟩

omit [Platform] in
@[simp] theorem lookup_setWorker : (s.setWorker w worker).lookup name = s.lookup name := rfl

omit [Platform] in
theorem workers_setWorker_self : (s.setWorker w worker).workers w = worker :=
  Function.update_self ..

omit [Platform] in
theorem workers_setWorker_of_ne (h : v ≠ w) : (s.setWorker w worker).workers v = s.workers v :=
  Function.update_of_ne h ..

omit [Platform] in
theorem setWorker_self (h : s.workers w = worker) : s.setWorker w worker = s := by
  unfold State.setWorker
  rw [← h, Function.update_eq_self]

omit [Platform] in
theorem lookup_setDirectory : (s.setDirectory inode d).lookup name = some (inode', d') ↔
    s.names.get? name = some inode' ∧ (inode' = inode ∧ d' = d ∨
      inode' ≠ inode ∧ s.directories inode' = some d') := by
  rw [lookup_eq_some]
  refine and_congr_right fun _ => ?_
  by_cases h : inode' = inode
  · subst h
    have hself : (s.setDirectory inode' d).directories inode' = some d := Function.update_self ..
    rw [hself, Option.some.injEq]
    simp [eq_comm]
  · have hne : (s.setDirectory inode d).directories inode' = s.directories inode' :=
      Function.update_of_ne h ..
    rw [hne]
    simp [h]

/-! ### Steps that only take away -/

/-- Files are gone at most. -/
structure Shrinks (d' d : Directory) : Prop where
  backup : ∀ bytes, d'.backup = some bytes → d.backup = some bytes
  manifest : ∀ payload, d'.manifest = some payload → d.manifest = some payload
  sidecars : ∀ name ∈ d'.sidecars, name ∈ d.sidecars
  activeLock : d.activeLock = none → d'.activeLock = none

omit [Platform] in
theorem Shrinks.refl (d : Directory) : Shrinks d d :=
  ⟨fun _ h => h, fun _ h => h, fun _ h => h, fun h => h⟩

omit [Platform] in
theorem shrinks_unlink {now : Int} {child : Child} (h : d.unlink now child = some d') :
    Shrinks d' d := by
  cases child with
  | activeLock =>
    simp only [Directory.unlink, Option.ite_none_right_eq_some, Option.some.injEq] at h
    obtain ⟨-, rfl⟩ := h
    exact ⟨fun _ h => h, fun _ h => h, fun _ h => h, fun _ => rfl⟩
  | backup =>
    simp only [Directory.unlink, Option.ite_none_right_eq_some, Option.some.injEq] at h
    obtain ⟨-, rfl⟩ := h
    exact ⟨fun _ h => absurd h (Option.some_ne_none _).symm, fun _ h => h, fun _ h => h, fun h => h⟩
  | manifest =>
    simp only [Directory.unlink, Option.ite_none_right_eq_some, Option.some.injEq] at h
    obtain ⟨-, rfl⟩ := h
    exact ⟨fun _ h => h, fun _ h => absurd h (Option.some_ne_none _).symm, fun _ h => h, fun h => h⟩
  | sidecar name =>
    simp only [Directory.unlink, Option.ite_none_right_eq_some, Option.some.injEq] at h
    obtain ⟨-, rfl⟩ := h
    exact ⟨fun _ h => h, fun _ h => h, fun _ h => List.mem_of_mem_filter h, fun h => h⟩

omit [Platform] in
theorem shrinks_release (w : Nat) (d : Directory) : Shrinks (d.release w) d := by
  unfold Directory.release
  split_ifs with h
  · exact ⟨fun _ h => h, fun _ h => h, fun _ h => h, fun hn => by rw [hn] at h; cases h⟩
  · exact .refl d

theorem Hashed.shrink {manifest : Manifest} (h : Hashed job manifest d) (hd : Shrinks d' d) :
    Hashed job manifest d' where
  backupId := h.backupId
  createdAt := h.createdAt
  size_pos := h.size_pos
  isDigest := h.isDigest
  alone := List.eq_nil_iff_forall_not_mem.mpr fun name hm => by
    have hmem := hd.sidecars name hm
    rw [h.alone] at hmem
    cases hmem
  sound bytes hb := h.sound bytes (hd.backup bytes hb)

theorem Written.shrink {manifest : Manifest} (h : Written job manifest d) (hd : Shrinks d' d) :
    Written job manifest d' where
  toHashed := h.toHashed.shrink hd
  bounded := h.bounded
  payload payload hp := h.payload payload (hd.manifest payload hp)

theorem StageOk.shrink (h : StageOk job d stage) (hd : Shrinks d' d) : StageOk job d' stage := by
  cases stage with
  | checked => exact fun bytes hb => h bytes (hd.backup bytes hb)
  | hashed manifest => exact Hashed.shrink h hd
  | writing manifest => exact ⟨h.1.shrink hd, h.2⟩
  | written manifest => exact Written.shrink h hd
  | unlocked manifest => exact Written.shrink h hd
  | bare manifest => exact ⟨h.1.shrink hd, hd.activeLock h.2⟩
  | cleared manifest => exact ⟨h.1.shrink hd, hd.activeLock h.2⟩
  | drawn | made | opened | locked | copying | copied | synced | published => trivial

theorem Finished.shrink (h : Finished name d) (hd : Shrinks d' d) : Finished name d' := by
  obtain ⟨job, manifest, hname, hat, hw, hlock⟩ := h
  exact ⟨job, manifest, hname, hat, hw.shrink hd, hd.activeLock hlock⟩

/-- A step that takes away: names, files, attempts. -/
structure Quiet (s s' : State) : Prop where
  names : ∀ name inode, s'.names.get? name = some inode → s.names.get? name = some inode
  directories : ∀ inode d', s'.directories inode = some d' →
    ∃ d, s.directories inode = some d ∧ Shrinks d' d
  workers : ∀ w job stage, s'.workers w = .attempt job stage → s.workers w = .attempt job stage
  inodes : s'.inodes = s.inodes
  drawn : s'.drawn = s.drawn

omit [Platform] in
theorem Quiet.lookup (h : Quiet s s') (hl : s'.lookup name = some (inode, d')) :
    ∃ d, s.lookup name = some (inode, d) ∧ Shrinks d' d := by
  obtain ⟨hn, hd⟩ := lookup_eq_some.mp hl
  obtain ⟨d, hd, hs⟩ := h.directories inode d' hd
  exact ⟨d, lookup_eq_some.mpr ⟨h.names name inode hn, hd⟩, hs⟩

theorem Inv.quiet (h : Inv s) (q : Quiet s s') : Inv s' where
  inode_lt name inode hn := by
    rw [q.inodes]
    exact h.inode_lt name inode (q.names name inode hn)
  inode_inj name name' inode hn hn' :=
    h.inode_inj name name' inode (q.names name inode hn) (q.names name' inode hn')
  job w job stage hw := by
    have hok := h.job w job stage (q.workers w job stage hw)
    exact ⟨hok.temporary, hok.backupId, hok.createdAt, q.drawn ▸ hok.drawn⟩
  distinct w v job job' stage stage' hw hv :=
    h.distinct w v job job' stage stage' (q.workers w job stage hw) (q.workers v job' stage' hv)
  attempt w job stage inode d hw hl := by
    obtain ⟨d, hl, hs⟩ := q.lookup hl
    exact (h.attempt w job stage inode d (q.workers w job stage hw) hl).shrink hs
  finished name inode d hid hl := by
    obtain ⟨d, hl, hs⟩ := q.lookup hl
    exact (h.finished name inode d hid hl).shrink hs

omit [Platform] in
theorem Quiet.trans {s'' : State} (h : Quiet s s') (g : Quiet s' s'') : Quiet s s'' where
  names name inode hn := h.names name inode (g.names name inode hn)
  directories inode d'' hd := by
    obtain ⟨d', hd', hs'⟩ := g.directories inode d'' hd
    obtain ⟨d, hd, hs⟩ := h.directories inode d' hd'
    exact ⟨d, hd, ⟨fun b hb => hs.backup b (hs'.backup b hb),
      fun p hp => hs.manifest p (hs'.manifest p hp), fun n hn => hs.sidecars n (hs'.sidecars n hn),
      fun hl => hs'.activeLock (hs.activeLock hl)⟩⟩
  workers w job stage hw := h.workers w job stage (g.workers w job stage hw)
  inodes := g.inodes.trans h.inodes
  drawn := g.drawn.trans h.drawn

omit [Platform] in
/-- A process that has no attempt, or has it no longer. -/
theorem quiet_setWorker (h : ∀ job stage, worker ≠ .attempt job stage) :
    Quiet s (s.setWorker w worker) where
  names _ _ hn := hn
  directories _ d' hd := ⟨d', hd, .refl d'⟩
  workers v job stage hv := by
    by_cases he : v = w
    · subst he
      rw [workers_setWorker_self] at hv
      exact absurd hv (h job stage)
    · rwa [workers_setWorker_of_ne he] at hv
  inodes := rfl
  drawn := rfl

omit [Platform] in
theorem quiet_releaseLocks : Quiet s (s.releaseLocks w) where
  names _ _ hn := hn
  directories inode d' hd := by
    obtain ⟨d, hd₀, rfl⟩ := Option.map_eq_some_iff.mp hd
    exact ⟨d, hd₀, shrinks_release w d⟩
  workers _ _ _ hv := hv
  inodes := rfl
  drawn := rfl

omit [Platform] in
theorem quiet_unlink {now : Int} {child : Child} (hd : s.directories inode = some d)
    (h : d.unlink now child = some d') : Quiet s (s.setDirectory inode d') where
  names _ _ hn := hn
  directories i e he := by
    by_cases hi : i = inode
    · subst hi
      have hself : (s.setDirectory i d').directories i = some d' := Function.update_self ..
      rw [hself] at he
      cases he
      exact ⟨d, hd, shrinks_unlink h⟩
    · have hne : (s.setDirectory inode d').directories i = s.directories i :=
        Function.update_of_ne hi ..
      rw [hne] at he
      exact ⟨e, he, .refl e⟩
  workers _ _ _ hv := hv
  inodes := rfl
  drawn := rfl

omit [Platform] in
theorem quiet_pop : Quiet s { s with names := s.names.pop name } where
  names _ _ hn := OrderedDict.get?_of_get?_pop hn
  directories _ d' hd := ⟨d', hd, .refl d'⟩
  workers _ _ _ hv := hv
  inodes := rfl
  drawn := rfl

omit [Platform] in
theorem quiet_entered : Quiet s { s with entered := inode :: s.entered } where
  names _ _ hn := hn
  directories _ d' hd := ⟨d', hd, .refl d'⟩
  workers _ _ _ hv := hv
  inodes := rfl
  drawn := rfl

/-! ### Steps of an attempt -/

omit [Platform] in
theorem attempt_setWorker {job' : Job} {stage'' : Stage} :
    (s.setWorker w (.attempt job stage)).workers v = .attempt job' stage'' ↔
      v = w ∧ job' = job ∧ stage'' = stage ∨ v ≠ w ∧ s.workers v = .attempt job' stage'' := by
  by_cases h : v = w
  · subst h
    rw [workers_setWorker_self, Worker.attempt.injEq]
    simp [eq_comm]
  · rw [workers_setWorker_of_ne h]
    simp [h]

/-- No other attempt and no backup has the directory of an attempt. -/
theorem Inv.apart (h : Inv s) (hw : s.workers w = .attempt job stage)
    (hn : s.names.get? job.temporaryName = some inode) :
    (∀ v job' stage', v ≠ w → s.workers v = .attempt job' stage' →
        s.names.get? job'.temporaryName ≠ some inode) ∧
      ∀ name, isBackupId name = true → s.names.get? name ≠ some inode := by
  refine ⟨fun v job' stage' hne hv hn' => ?_, fun name hid hn' => ?_⟩
  · exact hne (h.distinct v w job' job stage' stage hv hw (h.inode_inj _ _ inode hn' hn))
  · rw [h.inode_inj _ _ inode hn' hn,
      not_isBackupId_of_temporary (h.job w job stage hw).temporary] at hid
    cases hid

theorem Inv.job_setWorker (h : Inv s) (hw : s.workers w = .attempt job stage) :
    ∀ v job' st, (s.setWorker w (.attempt job stage')).workers v = .attempt job' st →
      JobOk s.drawn job' := by
  intro v job' st hv
  rcases attempt_setWorker.mp hv with ⟨rfl, rfl, rfl⟩ | ⟨-, hv'⟩
  · exact h.job v job' stage hw
  · exact h.job v job' st hv'

theorem Inv.distinct_setWorker (h : Inv s) (hw : s.workers w = .attempt job stage) :
    ∀ v u job₁ job₂ st₁ st₂, (s.setWorker w (.attempt job stage')).workers v = .attempt job₁ st₁ →
      (s.setWorker w (.attempt job stage')).workers u = .attempt job₂ st₂ →
      job₁.temporaryName = job₂.temporaryName → v = u := by
  have hold : ∀ v job' st, (s.setWorker w (.attempt job stage')).workers v = .attempt job' st →
      ∃ st', s.workers v = .attempt job' st' := by
    intro v job' st hv
    rcases attempt_setWorker.mp hv with ⟨rfl, rfl, rfl⟩ | ⟨-, hv'⟩
    · exact ⟨stage, hw⟩
    · exact ⟨st, hv'⟩
  intro v u job₁ job₂ st₁ st₂ hv hu
  obtain ⟨st₁', hv'⟩ := hold v job₁ st₁ hv
  obtain ⟨st₂', hu'⟩ := hold u job₂ st₂ hu
  exact h.distinct v u job₁ job₂ st₁' st₂' hv' hu'

/-- An attempt goes on in its own directory. -/
theorem Inv.advance (h : Inv s) (hw : s.workers w = .attempt job stage)
    (hl : s.lookup job.temporaryName = some (inode, d)) (hok : StageOk job d' stage') :
    Inv ((s.setDirectory inode d').setWorker w (.attempt job stage')) := by
  have hn : s.names.get? job.temporaryName = some inode := (lookup_eq_some.mp hl).1
  obtain ⟨hothers, hbackups⟩ := h.apart hw hn
  refine ⟨h.inode_lt, h.inode_inj, h.job_setWorker hw, h.distinct_setWorker hw,
    fun v job' st i e hv he => ?_, fun name i e hid he => ?_⟩
  · rw [lookup_setWorker, lookup_setDirectory] at he
    obtain ⟨hi, ⟨rfl, rfl⟩ | ⟨hne, he⟩⟩ := he
    · rcases attempt_setWorker.mp hv with ⟨rfl, rfl, rfl⟩ | ⟨hvw, hv'⟩
      · exact hok
      · exact absurd hi (hothers v job' st hvw hv')
    · rcases attempt_setWorker.mp hv with ⟨rfl, rfl, rfl⟩ | ⟨-, hv'⟩
      · exact absurd (Option.some.inj (hi.symm.trans hn)) hne
      · exact h.attempt v job' st i e hv' (lookup_eq_some.mpr ⟨hi, he⟩)
  · rw [lookup_setWorker, lookup_setDirectory] at he
    obtain ⟨hi, ⟨rfl, rfl⟩ | ⟨-, he⟩⟩ := he
    · exact absurd hi (hbackups name hid)
    · exact h.finished name i e hid (lookup_eq_some.mpr ⟨hi, he⟩)

/-- An attempt goes on and leaves the files. -/
theorem Inv.advance_same (h : Inv s) (hw : s.workers w = .attempt job stage)
    (hok : ∀ inode d, s.lookup job.temporaryName = some (inode, d) → StageOk job d stage') :
    Inv (s.setWorker w (.attempt job stage')) := by
  refine ⟨h.inode_lt, h.inode_inj, h.job_setWorker hw, h.distinct_setWorker hw,
    fun v job' st i e hv he => ?_, h.finished⟩
  rcases attempt_setWorker.mp hv with ⟨rfl, rfl, rfl⟩ | ⟨-, hv'⟩
  · exact hok i e he
  · exact h.attempt v job' st i e hv' he

/-- SQLite and the flushes of a file do not end a stage. -/
theorem Inv.write (h : Inv s) (hw : s.workers w = .attempt job stage)
    (hl : s.lookup job.temporaryName = some (inode, d)) (hok : StageOk job d' stage) :
    Inv (s.setDirectory inode d') := by
  have hadvance := h.advance hw hl hok
  rwa [setWorker_self (s := s.setDirectory inode d') hw] at hadvance

/-- The temporary directory is made. -/
theorem Inv.mkdir (h : Inv s) (hw : s.workers w = .attempt job .drawn)
    (hfree : s.names.get? job.temporaryName = none) :
    Inv ({ s with
      names := s.names.set job.temporaryName s.inodes
      directories := Function.update s.directories s.inodes (some (.made s.now))
      inodes := s.inodes + 1 }.setWorker w (.attempt job .made)) := by
  have hold : ∀ {name i}, name ≠ job.temporaryName →
      (s.names.set job.temporaryName s.inodes).get? name = some i → s.names.get? name = some i := by
    intro name i hne hi
    rwa [OrderedDict.get?_set_of_ne hne] at hi
  have hnew : ∀ {i}, (s.names.set job.temporaryName s.inodes).get? job.temporaryName = some i →
      i = s.inodes := by
    intro i hi
    rw [OrderedDict.get?_set_self] at hi
    exact (Option.some.inj hi).symm
  have hdir : ∀ {name i e}, name ≠ job.temporaryName → s.names.get? name = some i →
      Function.update s.directories s.inodes (some (.made s.now)) i = some e →
      s.lookup name = some (i, e) := by
    intro name i e hne hi he
    rw [Function.update_of_ne (Nat.ne_of_lt (h.inode_lt name i hi))] at he
    exact lookup_eq_some.mpr ⟨hi, he⟩
  refine ⟨fun name i hi => ?_, fun name name' i hi hi' => ?_, h.job_setWorker hw,
    h.distinct_setWorker hw, fun v job' st i e hv he => ?_, fun name i e hid he => ?_⟩
  · by_cases hne : name = job.temporaryName
    · subst hne
      exact hnew hi ▸ Nat.lt_succ_self _
    · exact (h.inode_lt name i (hold hne hi)).trans (Nat.lt_succ_self _)
  · by_cases hne : name = job.temporaryName <;> by_cases hne' : name' = job.temporaryName
    · rw [hne, hne']
    · subst hne
      have hlt := h.inode_lt name' i (hold hne' hi')
      rw [hnew hi] at hlt
      exact absurd hlt (Nat.lt_irrefl _)
    · subst hne'
      have hlt := h.inode_lt name i (hold hne hi)
      rw [hnew hi'] at hlt
      exact absurd hlt (Nat.lt_irrefl _)
    · exact h.inode_inj name name' i (hold hne hi) (hold hne' hi')
  · rcases attempt_setWorker.mp hv with ⟨rfl, rfl, rfl⟩ | ⟨hvw, hv'⟩
    · trivial
    · obtain ⟨hi, he⟩ := lookup_eq_some.mp he
      have hne : job'.temporaryName ≠ job.temporaryName := fun heq =>
        hvw (h.distinct v w job' job st .drawn hv' hw heq)
      exact h.attempt v job' st i e hv' (hdir hne (hold hne hi) he)
  · obtain ⟨hi, he⟩ := lookup_eq_some.mp he
    have hne : name ≠ job.temporaryName := by
      rintro rfl
      rw [not_isBackupId_of_temporary (h.job w job .drawn hw).temporary] at hid
      cases hid
    exact h.finished name i e hid (hdir hne (hold hne hi) he)

/-- The directory gets its final name. -/
theorem Inv.rename {manifest : Manifest} (h : Inv s)
    (hw : s.workers w = .attempt job (.cleared manifest))
    (hl : s.lookup job.temporaryName = some (inode, d)) :
    Inv ({ s with names := (s.names.pop job.temporaryName).set job.backupId inode }.setWorker w
      (.attempt job (.published manifest))) := by
  have hn : s.names.get? job.temporaryName = some inode := (lookup_eq_some.mp hl).1
  obtain ⟨hothers, hbackups⟩ := h.apart hw hn
  have hold : ∀ {name i}, name ≠ job.backupId →
      ((s.names.pop job.temporaryName).set job.backupId inode).get? name = some i →
      name ≠ job.temporaryName ∧ s.names.get? name = some i := by
    intro name i hne hi
    rw [OrderedDict.get?_set_of_ne hne, OrderedDict.get?_pop] at hi
    split_ifs at hi with htemp
    exact ⟨htemp, hi⟩
  have hnew : ∀ {i}, ((s.names.pop job.temporaryName).set job.backupId inode).get? job.backupId =
      some i → i = inode := by
    intro i hi
    rw [OrderedDict.get?_set_self] at hi
    exact (Option.some.inj hi).symm
  have hid := (h.job w job _ hw).backupId
  refine ⟨fun name i hi => ?_, fun name name' i hi hi' => ?_, h.job_setWorker hw,
    h.distinct_setWorker hw, fun v job' st i e hv he => ?_, fun name i e hname he => ?_⟩
  · by_cases hne : name = job.backupId
    · subst hne
      exact hnew hi ▸ h.inode_lt _ inode hn
    · exact h.inode_lt name i (hold hne hi).2
  · by_cases hne : name = job.backupId <;> by_cases hne' : name' = job.backupId
    · rw [hne, hne']
    · subst hne
      obtain rfl := hnew hi
      obtain ⟨htemp, hi'⟩ := hold hne' hi'
      exact absurd (h.inode_inj _ _ _ hi' hn) htemp
    · subst hne'
      obtain rfl := hnew hi'
      obtain ⟨htemp, hi⟩ := hold hne hi
      exact absurd (h.inode_inj _ _ _ hi hn) htemp
    · exact h.inode_inj name name' i (hold hne hi).2 (hold hne' hi').2
  · rcases attempt_setWorker.mp hv with ⟨rfl, rfl, rfl⟩ | ⟨-, hv'⟩
    · trivial
    · obtain ⟨hi, he⟩ := lookup_eq_some.mp he
      have hne : job'.temporaryName ≠ job.backupId := by
        intro heq
        rw [← heq, not_isBackupId_of_temporary (h.job v job' st hv').temporary] at hid
        cases hid
      exact h.attempt v job' st i e hv' (lookup_eq_some.mpr ⟨(hold hne hi).2, he⟩)
  · obtain ⟨hi, he'⟩ := lookup_eq_some.mp he
    by_cases hne : name = job.backupId
    · subst hne
      obtain rfl := hnew hi
      have hd : d = e := Option.some.inj ((lookup_eq_some.mp hl).2.symm.trans he')
      have hok : Written job manifest d ∧ d.activeLock = none :=
        h.attempt w job _ i d hw hl
      rw [← hd]
      exact ⟨job, manifest, rfl, (h.job w job _ hw).createdAt, hok.1, hok.2⟩
    · exact h.finished name i e hname (lookup_eq_some.mpr ⟨(hold hne hi).2, he'⟩)

/-- An attempt begins, under a name that no attempt has had. -/
theorem Inv.draw (h : Inv s) (hjob : JobOk (job.temporaryName :: s.drawn) job) (hfresh : job.temporaryName ∉ s.drawn) :
    Inv ({ s with drawn := job.temporaryName :: s.drawn }.setWorker w (.attempt job .drawn)) := by
  have hapart : ∀ v job' st, s.workers v = .attempt job' st →
      job'.temporaryName ≠ job.temporaryName := by
    intro v job' st hv heq
    exact hfresh (heq ▸ (h.job v job' st hv).drawn)
  refine ⟨h.inode_lt, h.inode_inj, fun v job' st hv => ?_, fun v u job₁ job₂ st₁ st₂ hv hu => ?_,
    fun v job' st i e hv he => ?_, h.finished⟩
  · rcases attempt_setWorker.mp hv with ⟨rfl, rfl, rfl⟩ | ⟨-, hv'⟩
    · exact hjob
    · have hok := h.job v job' st hv'
      exact ⟨hok.temporary, hok.backupId, hok.createdAt, List.mem_cons_of_mem _ hok.drawn⟩
  · rcases attempt_setWorker.mp hv with ⟨hv₁, hv₂, -⟩ | ⟨-, hv'⟩ <;>
      rcases attempt_setWorker.mp hu with ⟨hu₁, hu₂, -⟩ | ⟨-, hu'⟩
    · exact fun _ => hv₁.trans hu₁.symm
    · exact fun heq => absurd (hv₂ ▸ heq.symm) (hapart u job₂ st₂ hu')
    · exact fun heq => absurd (hu₂ ▸ heq) (hapart v job₁ st₁ hv')
    · exact h.distinct v u job₁ job₂ st₁ st₂ hv' hu'
  · rcases attempt_setWorker.mp hv with ⟨rfl, rfl, rfl⟩ | ⟨-, hv'⟩
    · trivial
    · exact h.attempt v job' st i e hv' he

/-! ### Runs -/

/-- What a call of an attempt keeps. -/
theorem Inv.call (h : Inv s) (hw : s.workers w = .attempt job stage)
    (hs : call s w job stage = some s') : Inv s' := by
  have hjob := h.job w job stage hw
  cases stage with
  | drawn =>
    simp only [Backups.call, Option.ite_none_right_eq_some, Option.some.injEq] at hs
    obtain ⟨hfree, rfl⟩ := hs
    exact h.mkdir hw hfree
  | made =>
    simp only [Backups.call] at hs
    split at hs
    next i e hl =>
      simp only [Option.ite_none_right_eq_some, Option.some.injEq] at hs
      obtain ⟨-, rfl⟩ := hs
      exact h.advance hw hl trivial
    next => cases hs
  | opened =>
    simp only [Backups.call] at hs
    split at hs
    next i e hl =>
      split at hs
      next =>
        cases hs
        exact h.advance_same hw fun _ _ _ => trivial
      next =>
        cases hs
        exact h.advance hw hl trivial
      next => cases hs
    next =>
      cases hs
      exact h.advance_same hw fun _ _ _ => trivial
  | locked =>
    simp only [Backups.call] at hs
    split at hs
    next i e hl =>
      simp only [Option.ite_none_right_eq_some, Option.some.injEq] at hs
      obtain ⟨-, rfl⟩ := hs
      exact h.advance hw hl trivial
    next => cases hs
  | copying =>
    cases hs
    exact h.advance_same hw fun _ _ _ => trivial
  | copied =>
    simp only [Backups.call] at hs
    split at hs
    next i e hl =>
      simp only [Option.ite_none_right_eq_some, Option.some.injEq] at hs
      obtain ⟨-, rfl⟩ := hs
      exact h.advance hw hl trivial
    next => cases hs
  | synced =>
    simp only [Backups.call] at hs
    split at hs
    next i e hl =>
      simp only [Option.ite_none_right_eq_some, Option.some.injEq] at hs
      obtain ⟨hcheck, rfl⟩ := hs
      refine h.advance_same hw fun i' e' hl' bytes hb => ?_
      obtain ⟨rfl, rfl⟩ := Prod.mk.inj (Option.some.inj (hl'.symm.trans hl))
      rwa [hb, Option.any_some] at hcheck
    next => cases hs
  | checked =>
    simp only [Backups.call] at hs
    split at hs
    next i e hl =>
      split at hs
      next bytes hb =>
        simp only [Option.ite_none_right_eq_some, Option.some.injEq] at hs
        obtain ⟨hpos, rfl⟩ := hs
        have hcheck : ∀ bytes, e.backup = some bytes → Platform.quickCheck bytes = true :=
          h.attempt w job _ i e hw hl
        refine h.advance hw hl ⟨rfl, rfl, hpos, Platform.isDigest_sha256 bytes, rfl,
          fun bytes' hb' => ?_⟩
        obtain rfl : bytes = bytes' := Option.some.inj (hb.symm.trans hb')
        exact ⟨rfl, rfl, hcheck bytes hb⟩
      next => cases hs
    next => cases hs
  | hashed manifest =>
    simp only [Backups.call] at hs
    split at hs
    next i e hl =>
      simp only [Option.ite_none_right_eq_some, Option.some.injEq] at hs
      obtain ⟨⟨-, hbounded⟩, rfl⟩ := hs
      have hok : Hashed job manifest e := h.attempt w job _ i e hw hl
      exact h.advance hw hl ⟨⟨hok.backupId, hok.createdAt, hok.size_pos, hok.isDigest, hok.alone,
        hok.sound⟩, hbounded⟩
    next => cases hs
  | writing manifest =>
    simp only [Backups.call] at hs
    split at hs
    next i e hl =>
      cases hs
      have hok : Hashed job manifest e ∧ _ := h.attempt w job _ i e hw hl
      refine h.advance hw hl ⟨⟨hok.1.backupId, hok.1.createdAt, hok.1.size_pos, hok.1.isDigest,
        hok.1.alone, hok.1.sound⟩, hok.2, fun payload hp => ?_⟩
      obtain ⟨-, -, rfl⟩ := Option.map_eq_some_iff.mp hp
      rfl
    next hl =>
      cases hs
      refine h.advance_same hw fun i e he => ?_
      rw [hl] at he
      cases he
  | written manifest =>
    simp only [Backups.call] at hs
    split at hs
    next i e hl =>
      cases hs
      have hok : Written job manifest e := h.attempt w job _ i e hw hl
      exact h.advance hw hl (hok.shrink (shrinks_release w e))
    next hl =>
      cases hs
      refine h.advance_same hw fun i e he => ?_
      rw [hl] at he
      cases he
  | unlocked manifest =>
    simp only [Backups.call] at hs
    split at hs
    next i e hl =>
      simp only [Option.ite_none_right_eq_some, Option.some.injEq] at hs
      obtain ⟨-, rfl⟩ := hs
      have hok : Written job manifest e := h.attempt w job _ i e hw hl
      exact h.advance hw hl ⟨hok.shrink ⟨fun _ hb => hb, fun _ hp => hp, fun _ hn => hn,
        fun _ => rfl⟩, rfl⟩
    next => cases hs
  | bare manifest =>
    simp only [Backups.call, Option.ite_none_right_eq_some, Option.some.injEq] at hs
    obtain ⟨-, rfl⟩ := hs
    refine h.advance_same hw fun i e he => ?_
    have hok : Written job manifest e ∧ e.activeLock = none := h.attempt w job _ i e hw he
    exact hok
  | cleared manifest =>
    simp only [Backups.call] at hs
    split at hs
    next i e hl =>
      simp only [Option.ite_none_right_eq_some, Option.some.injEq] at hs
      obtain ⟨-, rfl⟩ := hs
      exact h.rename hw hl
    next => cases hs
  | published manifest =>
    cases hs
    exact h.quiet (quiet_setWorker fun _ _ => Worker.noConfusion)

/-- Every attempt draws a temporary name that no attempt has had. -/
def FreshDraws (s : State) : Event → Prop
  | .draw _ createdAt token temporaryToken =>
    temporaryName (newBackupId createdAt token) temporaryToken ∉ s.drawn
  | _ => True

/-- The events that make or write something. -/
def Event.writes : Event → Bool
  | .call _ | .draw .. | .copy .. | .sidecars .. | .flush .. => true
  | _ => false

/-- The other events only take away. -/
theorem quiet_step {e : Event} (hs : step s e = some s') (hw : e.writes = false) : Quiet s s' := by
  cases e with
  | start w =>
    simp only [step] at hs
    split at hs
    next =>
      cases hs
      exact quiet_setWorker fun _ _ => Worker.noConfusion
    next => cases hs
  | probe w =>
    simp only [step] at hs
    split at hs
    next =>
      split_ifs at hs <;> cases hs <;> exact quiet_setWorker fun _ _ => Worker.noConfusion
    next => cases hs
  | enter w =>
    simp only [step] at hs
    split at hs
    next =>
      split at hs
      next inode _ =>
        cases hs
        exact quiet_entered.trans (quiet_setWorker fun _ _ => Worker.noConfusion)
      next =>
        cases hs
        exact quiet_setWorker fun _ _ => Worker.noConfusion
    next => cases hs
  | unlink w child =>
    simp only [step] at hs
    split at hs
    next inode _ =>
      split at hs
      next d hd =>
        cases hs
        obtain ⟨e, he, hu⟩ := Option.bind_eq_some_iff.mp hd
        exact quiet_unlink he hu
      next => cases hs
    next => cases hs
  | rmdir w =>
    simp only [step] at hs
    split at hs
    next =>
      split_ifs at hs
      cases hs
      exact quiet_pop.trans (quiet_setWorker fun _ _ => Worker.noConfusion)
    next => cases hs
  | giveUp w =>
    simp only [step] at hs
    split at hs
    next =>
      cases hs
      exact quiet_setWorker fun _ _ => Worker.noConfusion
    next => cases hs
  | finish w =>
    simp only [step] at hs
    split at hs
    next =>
      cases hs
      exact quiet_setWorker fun _ _ => Worker.noConfusion
    next =>
      cases hs
      exact quiet_setWorker fun _ _ => Worker.noConfusion
    next => cases hs
  | raise w =>
    simp only [step] at hs
    split at hs
    next =>
      cases hs
      exact quiet_releaseLocks.trans (quiet_setWorker fun _ _ => Worker.noConfusion)
    next => cases hs
  | crash w =>
    cases hs
    exact quiet_releaseLocks.trans (quiet_setWorker fun _ _ => Worker.noConfusion)
  | tick n =>
    cases hs
    exact ⟨fun _ _ h => h, fun _ d h => ⟨d, h, .refl d⟩, fun _ _ _ h => h, rfl, rfl⟩
  | call w => cases hw
  | draw w createdAt token temporaryToken => cases hw
  | copy w bytes => cases hw
  | sidecars w names => cases hw
  | flush w n => cases hw

/-- **Every step keeps the invariant.** -/
theorem Inv.step {e : Event} (h : Inv s) (hfresh : FreshDraws s e)
    (hs : backups.step s e = some s') : Inv s' := by
  change Backups.step s e = some s' at hs
  cases e with
  | call w =>
    simp only [Backups.step] at hs
    split at hs
    next job stage hw => exact h.call hw hs
    next => cases hs
  | draw w createdAt token temporaryToken =>
    simp only [Backups.step] at hs
    split at hs
    next =>
      split_ifs at hs with hdate
      · cases hs
        exact h.draw ⟨isTemporaryName_temporaryName hdate.1 token temporaryToken,
          isBackupId_newBackupId hdate.1 token, backupIdCreatedAt_newBackupId hdate.1 token,
          List.mem_cons_self⟩ hfresh
      · cases hs
        exact h.quiet (quiet_setWorker fun _ _ => Worker.noConfusion)
    next => cases hs
  | copy w bytes =>
    simp only [Backups.step] at hs
    split at hs
    next job hw =>
      split at hs
      next i e hl =>
        cases hs
        exact h.write hw hl trivial
      next => cases hs
    next => cases hs
  | sidecars w names =>
    simp only [Backups.step] at hs
    split at hs
    next job hw =>
      split at hs
      next i e hl =>
        cases hs
        exact h.write hw hl trivial
      next => cases hs
    next job hw =>
      split at hs
      next i e hl =>
        cases hs
        exact h.write hw hl trivial
      next => cases hs
    next => cases hs
  | flush w n =>
    simp only [Backups.step] at hs
    split at hs
    next job manifest hw =>
      split at hs
      next i e hl =>
        cases hs
        have hok : Hashed job manifest e ∧ _ := h.attempt w job _ i e hw hl
        exact h.write hw hl ⟨⟨hok.1.backupId, hok.1.createdAt, hok.1.size_pos, hok.1.isDigest,
          hok.1.alone, hok.1.sound⟩, hok.2⟩
      next => cases hs
    next => cases hs
  | _ => exact h.quiet (quiet_step hs rfl)

theorem inv_initial (now : Int) : Inv (.initial now) where
  inode_lt _ _ hn := absurd hn (Option.some_ne_none _).symm
  inode_inj _ _ _ hn := absurd hn (Option.some_ne_none _).symm
  job _ _ _ hw := Worker.noConfusion hw
  distinct _ _ _ _ _ _ hw := Worker.noConfusion hw
  attempt _ _ _ _ _ hw := Worker.noConfusion hw
  finished _ _ _ _ hl := absurd (lookup_eq_some.mp hl).1 (Option.some_ne_none _).symm

theorem inv_run {now : Int} (h : backups.Run FreshDraws (.initial now) s) : Inv s :=
  h.invariant (fun _ _ _ hinv hok hs => hinv.step hok hs) (inv_initial now)

/-! ### The listing -/

/-- What a listed backup says. -/
theorem manifestMetadata_eq_some {metadata : Metadata}
    (h : manifestMetadata s name = some metadata) :
    ∃ inode d payload manifest, s.lookup name = some (inode, d) ∧ d.manifest = some payload ∧
      Platform.load payload = some manifest ∧ manifest.backupId = name ∧
      metadata = ⟨manifest.backupId, manifest.createdAt, manifest.sizeBytes, manifest.sha256,
        backupFileStatus d.backup manifest.sizeBytes⟩ := by
  unfold manifestMetadata at h
  simp only [Option.bind_eq_bind, Option.bind_eq_some_iff, Option.ite_none_left_eq_some,
    Option.ite_none_right_eq_some, Option.some.injEq] at h
  obtain ⟨p, hl, payload, hp, -, manifest, hm, hok, rfl⟩ := h
  exact ⟨p.1, p.2, payload, manifest, hl, hp, hm, hok.1, rfl⟩

/-- The loop keeps the first backups that can be read, one more than it may return. -/
theorem gather_eq (s : State) (limit : Nat) (names : List String) :
    ∀ backups : List Metadata, backups.length ≤ limit →
      gather s limit backups names =
        (backups ++ names.filterMap (manifestMetadata s)).take (limit + 1) := by
  induction names with
  | nil =>
    intro backups hlen
    rw [gather, List.filterMap_nil, List.append_nil, List.take_of_length_le (by omega)]
  | cons name rest ih =>
    intro backups hlen
    rw [gather]
    cases hm : manifestMetadata s name with
    | none =>
      rw [List.filterMap_cons_none hm]
      exact ih backups hlen
    | some metadata =>
      have hlen' : (backups ++ [metadata]).length = backups.length + 1 := List.length_append
      rw [List.filterMap_cons_some hm, List.append_cons backups metadata (rest.filterMap _)]
      dsimp only
      split_ifs with hfull
      · rw [List.take_append_of_le_length (by omega), List.take_of_length_le (by omega)]
      · exact ih _ (by omega)

/-- **The listing is the newest backups that can be read.** -/
theorem listBackups_eq (s : State) (limit : Nat) :
    listBackups s limit =
      (((listCandidates s.names.keys).filterMap (manifestMetadata s)).take limit,
        decide (limit < ((listCandidates s.names.keys).filterMap (manifestMetadata s)).length)) := by
  unfold listBackups
  dsimp only
  rw [gather_eq s limit _ [] (Nat.zero_le _), List.nil_append, List.take_take, List.length_take,
    Nat.min_eq_left (Nat.le_succ limit)]
  refine congrArg _ (decide_eq_decide.mpr ?_)
  omega

omit [Platform] in
theorem mem_listCandidates {names : List String} :
    name ∈ listCandidates names ↔
      name ∈ names ∧ isBackupId name = true ∧ (backupIdCreatedAt name).isSome = true := by
  simp only [listCandidates, List.mem_insertionSort, List.mem_filter, Bool.and_eq_true]

/-- **A backup that is listed as verified is what was made**: whatever other attempts, removals
and crashes there were, its bytes have the size and the hash that are listed, and they passed
the check. -/
theorem verified_sound {now : Int} (h : backups.Run FreshDraws (.initial now) s) (limit : Nat) :
    ∀ metadata ∈ (listBackups s limit).1, metadata.status = .verified →
      isBackupId metadata.backupId = true ∧
      backupIdCreatedAt metadata.backupId = some metadata.createdAt ∧
      ∃ inode d bytes, s.lookup metadata.backupId = some (inode, d) ∧ d.backup = some bytes ∧
        d.activeLock = none ∧ d.sidecars = [] ∧
        bytes.length = metadata.sizeBytes ∧ Platform.sha256 bytes = metadata.sha256 ∧
        Platform.quickCheck bytes = true := by
  intro metadata hm hverified
  rw [listBackups_eq] at hm
  obtain ⟨name, hname, hmeta⟩ := List.mem_filterMap.mp (List.mem_of_mem_take hm)
  obtain ⟨-, hid, -⟩ := mem_listCandidates.mp hname
  obtain ⟨inode, d, payload, manifest, hl, hp, hload, hbackup, rfl⟩ := manifestMetadata_eq_some hmeta
  obtain ⟨job, made, hjob, hat, hwritten, hlock⟩ := (inv_run h).finished name inode d hid hl
  have hvalid : made.Valid := by
    refine ⟨?_, ?_, hwritten.size_pos, hwritten.isDigest⟩
    · rw [hwritten.backupId, hjob]
      exact hid
    · rw [hwritten.backupId, hwritten.createdAt, hjob]
      exact hat
  obtain rfl : manifest = made := by
    rw [hwritten.payload payload hp, Platform.load_dump made hvalid] at hload
    exact (Option.some.inj hload).symm
  subst hbackup
  refine ⟨hid, hvalid.createdAt, inode, d, ?_⟩
  cases hb : d.backup with
  | none =>
    rw [hb] at hverified
    cases hverified
  | some bytes =>
    have hsound := hwritten.sound bytes hb
    exact ⟨bytes, hl, rfl, hlock, hwritten.alone, hsound.size.symm, hsound.sha256.symm,
      hsound.quickCheck⟩

instance : ∀ (s : State) (e : Event), Decidable (FreshDraws s e)
  | s, .draw _ createdAt token temporaryToken =>
    inferInstanceAs (Decidable (temporaryName (newBackupId createdAt token) temporaryToken ∉ s.drawn))
  | _, .start _ | _, .probe _ | _, .enter _ | _, .unlink _ _ | _, .rmdir _ | _, .giveUp _
  | _, .finish _ | _, .call _ | _, .copy _ _ | _, .sidecars _ _ | _, .flush _ _ | _, .raise _
  | _, .crash _ | _, .tick _ => inferInstanceAs (Decidable True)

def sampleToken : Token := ⟨"0123456789abcdef", by decide, by decide⟩

/-- An attempt up to the copy, while another process looks for what to scavenge. -/
def copyEvents : List Event :=
  [.start 0, .draw 0 63852364800000000 sampleToken sampleToken, .call 0, .start 1, .call 0, .call 0,
    .probe 1, .call 0, .copy 0 [72, 105]]

/-- The rest of it. -/
def publishEvents : List Event := List.replicate 11 (.call 0) ++ [.finish 0]

omit [Platform] in
theorem verified_sound_publish :
    let _ := plainPlatform
    ∃ s : State, (listBackups s 50).1 = [⟨"20240526T000000000000Z-0123456789abcdef", 63852364800000000,
        2, plainDigest [72, 105], .verified⟩] ∧
      ∃ inode d bytes, s.lookup "20240526T000000000000Z-0123456789abcdef" = some (inode, d) ∧
        d.backup = some bytes ∧ Platform.sha256 bytes = plainDigest [72, 105] := by
  let _ := plainPlatform
  have hmeets : backups.Meets FreshDraws (.initial 0) (copyEvents ++ publishEvents) := by
    decide +kernel
  have hview : (backups.exec (.initial 0) (copyEvents ++ publishEvents)).map
      (fun s => (listBackups s 50).1) = some [⟨"20240526T000000000000Z-0123456789abcdef",
        63852364800000000, 2, plainDigest [72, 105], .verified⟩] := by decide +kernel
  obtain ⟨s, -, hrun, hlist⟩ := System.run_of_view hmeets hview
  obtain ⟨-, -, inode, d, bytes, hl, hb, -, -, -, hhash, -⟩ :=
    verified_sound hrun 50 _ (by rw [hlist]; exact List.mem_singleton_self _) rfl
  exact ⟨s, hlist, inode, d, bytes, hl, hb, hhash⟩

end FinancialDashboard.Backups
