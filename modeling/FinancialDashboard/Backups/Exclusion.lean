import FinancialDashboard.Backups.Publication

/-!
# What protects an attempt

A scavenger takes a temporary directory for that of a crashed attempt when nothing in it has
changed for a day and its lock is free.  An attempt holds the lock but for a few calls at its
beginning and its end.

* `attempt_undisturbed`: so, if no attempt spends a day in those, no removal opens the directory
  of an attempt that is going on, and no call of an attempt fails for what other processes do.
-/

namespace FinancialDashboard.Backups

open PyTime Transition

variable [Platform]

/-! ### The invariant -/

/-- The stages of an attempt that has a temporary directory. -/
def Stage.hasDirectory : Stage → Bool
  | .drawn | .published _ => false
  | _ => true

/-- The stages of an attempt that has a directory and not the lock, or soon gives it back. -/
def Stage.exposed : Stage → Bool
  | .made | .opened | .writing _ | .written _ | .unlocked _ | .bare _ | .cleared _ => true
  | _ => false

/-- No attempt is exposed for a day after the last change of its directory. -/
def Prompt (s : State) : Event → Prop
  | .tick n => ∀ w job stage inode d, s.workers w = .attempt job stage → stage.exposed = true →
      s.lookup job.temporaryName = some (inode, d) → s.now + n - staleTempMinAgeSeconds < d.mtime
  | _ => True

/-- No attempt has this temporary name, or will have it. -/
structure Dead (s : State) (name : String) : Prop where
  drawn : isTemporaryName name = true → name ∈ s.drawn
  apart : ∀ w job stage, s.workers w = .attempt job stage → job.temporaryName ≠ name

/-- The names a removal has in hand, which it tests no more. -/
def Worker.Dooms : Worker → String → Prop
  | .removing errand todo place, name =>
    errand ≠ .scavenge ∧ name ∈ todo ∨ place ≠ .looking ∧ todo.head? = some name
  | _, _ => False

structure Guarded (s : State) : Prop where
  live : ∀ w job stage, s.workers w = .attempt job stage → stage.hasDirectory = true →
    ∃ inode d, s.lookup job.temporaryName = some (inode, d) ∧ inode ∉ s.entered ∧
      (stage.exposed = true → s.now - staleTempMinAgeSeconds < d.mtime)
  absent : ∀ w job stage, s.workers w = .attempt job stage → stage.hasDirectory = false →
    s.names.get? job.temporaryName = none
  temporary : ∀ name inode, s.names.get? name = some inode → isTemporaryName name = true →
    name ∈ s.drawn
  doomed : ∀ v name, (s.workers v).Dooms name → Dead s name
  entered_lt : ∀ inode ∈ s.entered, inode < s.inodes

variable {s s' : State} {w v inode : Nat} {d d' : Directory} {job : Job} {stage stage' : Stage}
  {name : String} {worker : Worker}

/-! ### Removals -/

omit [Platform] in
/-- A name stays dead while no attempt draws it. -/
theorem Dead.mono (h : Dead s name) (hdrawn : ∀ n ∈ s.drawn, n ∈ s'.drawn)
    (hworkers : ∀ w job stage, s'.workers w = .attempt job stage →
      (∃ stage', s.workers w = .attempt job stage') ∨
        isTemporaryName job.temporaryName = true ∧ job.temporaryName ∉ s.drawn) :
    Dead s' name where
  drawn ht := hdrawn name (h.drawn ht)
  apart w job stage hw := by
    rcases hworkers w job stage hw with ⟨stage', hw'⟩ | ⟨ht, hfresh⟩
    · exact h.apart w job stage' hw'
    · rintro rfl
      exact hfresh (h.drawn ht)

omit [Platform] in
theorem dead_setWorker (h : Dead s name) (ha : ∀ job stage, worker ≠ .attempt job stage) :
    Dead (s.setWorker w worker) name :=
  h.mono (fun _ hm => hm) fun u job stage hu =>
    .inl ⟨stage, (quiet_setWorker ha).workers u job stage hu⟩

omit [Platform] in
/-- A process that has no attempt, or has it no longer, turns to a removal. -/
theorem Guarded.setWorker (h : Guarded s) (ha : ∀ job stage, worker ≠ .attempt job stage)
    (hd : ∀ name, worker.Dooms name → Dead (s.setWorker w worker) name) :
    Guarded (s.setWorker w worker) where
  live v job stage hv := h.live v job stage ((quiet_setWorker ha).workers v job stage hv)
  absent v job stage hv := h.absent v job stage ((quiet_setWorker ha).workers v job stage hv)
  temporary := h.temporary
  doomed v name hv := by
    by_cases he : v = w
    · subst he
      rw [workers_setWorker_self] at hv
      exact hd name hv
    · rw [workers_setWorker_of_ne he] at hv
      exact dead_setWorker (h.doomed v name hv) ha
  entered_lt := h.entered_lt

omit [Platform] in
/-- A removal opens a directory that no attempt has. -/
theorem Guarded.enter (h : Guarded s) (hdead : Dead s name)
    (hinj : ∀ name' inode', s.names.get? name' = some inode' → s.names.get? name = some inode' →
      name' = name)
    (hlt : inode < s.inodes) (hn : s.names.get? name = some inode) :
    Guarded { s with entered := inode :: s.entered } where
  live v job stage hv hd := by
    obtain ⟨i, d, hl, hne, hfresh⟩ := h.live v job stage hv hd
    refine ⟨i, d, hl, fun hm => ?_, hfresh⟩
    rcases List.mem_cons.mp hm with rfl | hm
    · exact hdead.apart v job stage hv (hinj _ i (lookup_eq_some.mp hl).1 hn)
    · exact hne hm
  absent := h.absent
  temporary := h.temporary
  doomed v name hv := (h.doomed v name hv).mono (fun _ hm => hm) fun _ _ stage hu => .inl ⟨stage, hu⟩
  entered_lt i hm := by
    rcases List.mem_cons.mp hm with rfl | hm
    · exact hlt
    · exact h.entered_lt i hm

omit [Platform] in
theorem Guarded.unlink (h : Guarded s) (hin : inode ∈ s.entered) :
    Guarded (s.setDirectory inode d') where
  live v job stage hv hd := by
    obtain ⟨i, d, hl, hne, hfresh⟩ := h.live v job stage hv hd
    have hi : i ≠ inode := fun he => hne (he ▸ hin)
    obtain ⟨hn, hdir⟩ := lookup_eq_some.mp hl
    exact ⟨i, d, lookup_setDirectory.mpr ⟨hn, .inr ⟨hi, hdir⟩⟩, hne, hfresh⟩
  absent := h.absent
  temporary := h.temporary
  doomed v name hv := (h.doomed v name hv).mono (fun _ hm => hm) fun _ _ stage hu => .inl ⟨stage, hu⟩
  entered_lt := h.entered_lt

omit [Platform] in
theorem Guarded.pop (h : Guarded s) (hdead : Dead s name) :
    Guarded { s with names := s.names.pop name } where
  live v job stage hv hd := by
    obtain ⟨i, d, hl, hne, hfresh⟩ := h.live v job stage hv hd
    obtain ⟨hn, hdir⟩ := lookup_eq_some.mp hl
    refine ⟨i, d, lookup_eq_some.mpr ⟨?_, hdir⟩, hne, hfresh⟩
    exact (OrderedDict.get?_pop_of_ne (hdead.apart v job stage hv)).trans hn
  absent v job stage hv hdir := by
    cases hn : (s.names.pop name).get? job.temporaryName with
    | none => rfl
    | some i =>
      have hold := OrderedDict.get?_of_get?_pop hn
      rw [h.absent v job stage hv hdir] at hold
      cases hold
  temporary n i hn ht := h.temporary n i (OrderedDict.get?_of_get?_pop hn) ht
  doomed v name hv := (h.doomed v name hv).mono (fun _ hm => hm) fun _ _ stage hu => .inl ⟨stage, hu⟩
  entered_lt := h.entered_lt

omit [Platform] in
theorem Guarded.releaseLocks (h : Guarded s) : Guarded (s.releaseLocks w) where
  live v job stage hv hd := by
    obtain ⟨i, d, hl, hne, hfresh⟩ := h.live v job stage hv hd
    obtain ⟨hn, hdir⟩ := lookup_eq_some.mp hl
    refine ⟨i, d.release w, lookup_eq_some.mpr ⟨hn, Option.map_eq_some_iff.mpr ⟨d, hdir, rfl⟩⟩, hne, ?_⟩
    have htime : (d.release w).mtime = d.mtime := by
      unfold Directory.release
      split_ifs <;> rfl
    rw [htime]
    exact hfresh
  absent := h.absent
  temporary := h.temporary
  doomed v name hv := (h.doomed v name hv).mono (fun _ hm => hm) fun _ _ stage hu => .inl ⟨stage, hu⟩
  entered_lt := h.entered_lt

omit [Platform] in
theorem Guarded.tick (h : Guarded s) {n : Nat} (hp : Prompt s (.tick n)) :
    Guarded { s with now := s.now + n } where
  live v job stage hv hd := by
    obtain ⟨i, d, hl, hne, -⟩ := h.live v job stage hv hd
    exact ⟨i, d, hl, hne, fun hexposed => hp v job stage i d hv hexposed hl⟩
  absent := h.absent
  temporary := h.temporary
  doomed v name hv := (h.doomed v name hv).mono (fun _ hm => hm) fun _ _ stage hu => .inl ⟨stage, hu⟩
  entered_lt := h.entered_lt

/-! ### Attempts -/

omit [Platform] in
/-- What an attempt has in hand does not change with its stage. -/
theorem doomed_setWorker (hw : s.workers w = .attempt job stage)
    (h : ∀ v name, (s.workers v).Dooms name → Dead s name) :
    ∀ v name, ((s.setWorker w (.attempt job stage')).workers v).Dooms name →
      Dead (s.setWorker w (.attempt job stage')) name := by
  intro v name hv
  by_cases he : v = w
  · subst he
    rw [workers_setWorker_self] at hv
    exact hv.elim
  · rw [workers_setWorker_of_ne he] at hv
    refine (h v name hv).mono (fun _ hm => hm) fun u job' st hu => .inl ?_
    rcases attempt_setWorker.mp hu with ⟨rfl, rfl, -⟩ | ⟨-, hu'⟩
    · exact ⟨stage, hw⟩
    · exact ⟨st, hu'⟩

theorem Guarded.advance (h : Guarded s) (hinv : Inv s) (hw : s.workers w = .attempt job stage)
    (hl : s.lookup job.temporaryName = some (inode, d)) (hne : inode ∉ s.entered)
    (hdir' : stage'.hasDirectory = true)
    (hfresh : stage'.exposed = true → s.now - staleTempMinAgeSeconds < d'.mtime) :
    Guarded ((s.setDirectory inode d').setWorker w (.attempt job stage')) := by
  obtain ⟨hn, hd⟩ := lookup_eq_some.mp hl
  obtain ⟨hothers, -⟩ := hinv.apart hw hn
  refine ⟨fun v job' st hv hdir => ?_, fun v job' st hv hdir => ?_, h.temporary,
    doomed_setWorker (s := s.setDirectory inode d') hw fun v name hd => (h.doomed v name hd).mono
      (fun _ hm => hm) fun _ _ st hu => .inl ⟨st, hu⟩, h.entered_lt⟩
  · rcases attempt_setWorker.mp hv with ⟨rfl, rfl, rfl⟩ | ⟨hvw, hv'⟩
    · exact ⟨inode, d', lookup_setDirectory.mpr ⟨hn, .inl ⟨rfl, rfl⟩⟩, hne, hfresh⟩
    · obtain ⟨i, e, he, hne', hfresh'⟩ := h.live v job' st hv' hdir
      obtain ⟨hi, hdir'⟩ := lookup_eq_some.mp he
      have hother : i ≠ inode := fun heq => hothers v job' st hvw hv' (heq ▸ hi)
      exact ⟨i, e, lookup_setDirectory.mpr ⟨hi, .inr ⟨hother, hdir'⟩⟩, hne', hfresh'⟩
  · rcases attempt_setWorker.mp hv with ⟨-, -, rfl⟩ | ⟨-, hv'⟩
    · rw [hdir'] at hdir
      cases hdir
    · exact h.absent v job' st hv' hdir

omit [Platform] in
theorem Guarded.advance_same (h : Guarded s) (hw : s.workers w = .attempt job stage)
    (hdir' : stage'.hasDirectory = true)
    (hlive : stage'.hasDirectory = true → ∃ inode d,
      s.lookup job.temporaryName = some (inode, d) ∧ inode ∉ s.entered ∧
        (stage'.exposed = true → s.now - staleTempMinAgeSeconds < d.mtime)) :
    Guarded (s.setWorker w (.attempt job stage')) := by
  refine ⟨fun v job' st hv hdir => ?_, fun v job' st hv hdir => ?_, h.temporary,
    doomed_setWorker hw h.doomed, h.entered_lt⟩
  · rcases attempt_setWorker.mp hv with ⟨rfl, rfl, rfl⟩ | ⟨-, hv'⟩
    · exact hlive hdir
    · exact h.live v job' st hv' hdir
  · rcases attempt_setWorker.mp hv with ⟨-, -, rfl⟩ | ⟨-, hv'⟩
    · rw [hdir'] at hdir
      cases hdir
    · exact h.absent v job' st hv' hdir

theorem Guarded.write (h : Guarded s) (hinv : Inv s) (hw : s.workers w = .attempt job stage)
    (hl : s.lookup job.temporaryName = some (inode, d)) (hdir : stage.hasDirectory = true)
    (htime : d'.mtime = s.now ∨ d'.mtime = d.mtime) : Guarded (s.setDirectory inode d') := by
  obtain ⟨i, e, he, hne, hfresh⟩ := h.live w job stage hw hdir
  obtain ⟨rfl, rfl⟩ := Prod.mk.inj (Option.some.inj (he.symm.trans hl))
  have hadvance : Guarded ((s.setDirectory i d').setWorker w (.attempt job stage)) := by
    refine h.advance hinv hw hl hne hdir fun hexposed => ?_
    rcases htime with htime | htime
    · rw [htime]
      unfold staleTempMinAgeSeconds
      omega
    · rw [htime]
      exact hfresh hexposed
  rwa [setWorker_self (s := s.setDirectory i d') hw] at hadvance

omit [Platform] in
/-- An attempt begins under a name that is not among the names. -/
theorem Guarded.draw (h : Guarded s) (ht : isTemporaryName job.temporaryName = true)
    (hfresh : job.temporaryName ∉ s.drawn) :
    Guarded ({ s with drawn := job.temporaryName :: s.drawn }.setWorker w (.attempt job .drawn)) := by
  refine ⟨fun v job' st hv hdir => ?_, fun v job' st hv hdir => ?_, fun name i hi hname =>
    List.mem_cons_of_mem _ (h.temporary name i hi hname), fun v name hv => ?_, h.entered_lt⟩
  · rcases attempt_setWorker.mp hv with ⟨-, -, rfl⟩ | ⟨-, hv'⟩
    · cases hdir
    · exact h.live v job' st hv' hdir
  · rcases attempt_setWorker.mp hv with ⟨-, rfl, -⟩ | ⟨-, hv'⟩
    · by_contra hn
      obtain ⟨i, hi⟩ := Option.ne_none_iff_exists'.mp hn
      exact hfresh (h.temporary job'.temporaryName i hi ht)
    · exact h.absent v job' st hv' hdir
  · by_cases he : v = w
    · subst he
      rw [workers_setWorker_self] at hv
      exact hv.elim
    · rw [workers_setWorker_of_ne he] at hv
      refine (h.doomed v name hv).mono (fun _ hm => List.mem_cons_of_mem _ hm) fun u job' st hu => ?_
      rcases attempt_setWorker.mp hu with ⟨-, rfl, -⟩ | ⟨-, hu'⟩
      · exact .inr ⟨ht, hfresh⟩
      · exact .inl ⟨st, hu'⟩

theorem Guarded.mkdir (h : Guarded s) (hinv : Inv s) (hw : s.workers w = .attempt job .drawn) :
    Guarded ({ s with
      names := s.names.set job.temporaryName s.inodes
      directories := Function.update s.directories s.inodes (some (.made s.now))
      inodes := s.inodes + 1 }.setWorker w (.attempt job .made)) := by
  refine ⟨fun v job' st hv hdir => ?_, fun v job' st hv hdir => ?_, fun name i hi hname => ?_,
    fun v name hv => ?_, fun i hm => (h.entered_lt i hm).trans (Nat.lt_succ_self _)⟩
  · rcases attempt_setWorker.mp hv with ⟨rfl, rfl, rfl⟩ | ⟨hvw, hv'⟩
    · refine ⟨s.inodes, .made s.now, lookup_eq_some.mpr ⟨OrderedDict.get?_set_self,
        Function.update_self ..⟩, fun hm => Nat.lt_irrefl _ (h.entered_lt _ hm), fun _ => ?_⟩
      exact show s.now - staleTempMinAgeSeconds < s.now by unfold staleTempMinAgeSeconds; omega
    · obtain ⟨i, e, he, hne, hfresh⟩ := h.live v job' st hv' hdir
      obtain ⟨hi, hdir'⟩ := lookup_eq_some.mp he
      have hother : job'.temporaryName ≠ job.temporaryName := fun heq =>
        hvw (hinv.distinct v w job' job st .drawn hv' hw heq)
      exact ⟨i, e, lookup_eq_some.mpr ⟨(OrderedDict.get?_set_of_ne hother).trans hi,
        (Function.update_of_ne (Nat.ne_of_lt (hinv.inode_lt _ i hi)) ..).trans hdir'⟩, hne, hfresh⟩
  · rcases attempt_setWorker.mp hv with ⟨-, -, rfl⟩ | ⟨hvw, hv'⟩
    · cases hdir
    · have hother : job'.temporaryName ≠ job.temporaryName := fun heq =>
        hvw (hinv.distinct v w job' job st .drawn hv' hw heq)
      exact (OrderedDict.get?_set_of_ne hother).trans (h.absent v job' st hv' hdir)
  · have hset : (s.names.set job.temporaryName s.inodes).get? name = some i := hi
    rw [OrderedDict.get?_set] at hset
    split_ifs at hset with hname'
    · exact hname' ▸ (hinv.job w job .drawn hw).drawn
    · exact h.temporary name i hset hname
  · exact doomed_setWorker (s := { s with
      names := s.names.set job.temporaryName s.inodes
      directories := Function.update s.directories s.inodes (some (.made s.now))
      inodes := s.inodes + 1 }) hw (fun v name hd => (h.doomed v name hd).mono (fun _ hm => hm)
        fun _ _ st hu => .inl ⟨st, hu⟩) v name hv

theorem Guarded.rename {manifest : Manifest} (h : Guarded s) (hinv : Inv s)
    (hw : s.workers w = .attempt job (.cleared manifest)) :
    Guarded ({ s with names := (s.names.pop job.temporaryName).set job.backupId inode }.setWorker w
      (.attempt job (.published manifest))) := by
  have hid := (hinv.job w job _ hw).backupId
  have hapart : ∀ {name}, isTemporaryName name = true → name ≠ job.backupId := by
    rintro name ht rfl
    rw [not_isBackupId_of_temporary ht] at hid
    cases hid
  have hkeep : ∀ {name}, name ≠ job.backupId → name ≠ job.temporaryName →
      ((s.names.pop job.temporaryName).set job.backupId inode).get? name = s.names.get? name :=
    fun hne htemp => (OrderedDict.get?_set_of_ne hne).trans (OrderedDict.get?_pop_of_ne htemp)
  have hother : ∀ {v job' st}, v ≠ w → s.workers v = .attempt job' st →
      ((s.names.pop job.temporaryName).set job.backupId inode).get? job'.temporaryName =
        s.names.get? job'.temporaryName := by
    intro v job' st hvw hv
    exact hkeep (hapart (hinv.job v job' st hv).temporary) fun heq =>
      hvw (hinv.distinct v w job' job st _ hv hw heq)
  refine ⟨fun v job' st hv hdir => ?_, fun v job' st hv hdir => ?_, fun name i hi hname => ?_,
    fun v name hv => ?_, h.entered_lt⟩
  · rcases attempt_setWorker.mp hv with ⟨-, -, rfl⟩ | ⟨hvw, hv'⟩
    · cases hdir
    · obtain ⟨i, e, he, hne, hfresh⟩ := h.live v job' st hv' hdir
      obtain ⟨hi, hdir'⟩ := lookup_eq_some.mp he
      exact ⟨i, e, lookup_eq_some.mpr ⟨(hother hvw hv').trans hi, hdir'⟩, hne, hfresh⟩
  · rcases attempt_setWorker.mp hv with ⟨-, rfl, -⟩ | ⟨hvw, hv'⟩
    · exact (OrderedDict.get?_set_of_ne (hapart (hinv.job w job' _ hw).temporary)).trans
        OrderedDict.get?_pop_self
    · exact (hother hvw hv').trans (h.absent v job' st hv' hdir)
  · have hset : ((s.names.pop job.temporaryName).set job.backupId inode).get? name = some i := hi
    rw [OrderedDict.get?_set_of_ne (hapart hname)] at hset
    exact h.temporary name i (OrderedDict.get?_of_get?_pop hset) hname
  · exact doomed_setWorker (s := { s with
      names := (s.names.pop job.temporaryName).set job.backupId inode }) hw
        (fun v name hd => (h.doomed v name hd).mono (fun _ hm => hm)
          fun _ _ st hu => .inl ⟨st, hu⟩) v name hv

/-! ### Runs -/

theorem Guarded.call (h : Guarded s) (hinv : Inv s) (hw : s.workers w = .attempt job stage) (hs : call s w job stage = some s') : Guarded s' := by
  have hnow : s.now - staleTempMinAgeSeconds < s.now := by
    unfold staleTempMinAgeSeconds
    omega
  have hlive : ∀ i e, stage.hasDirectory = true → s.lookup job.temporaryName = some (i, e) →
      i ∉ s.entered ∧ (stage.exposed = true → s.now - staleTempMinAgeSeconds < e.mtime) := by
    intro i e hdir hl
    obtain ⟨i', e', hl', hne, hfresh⟩ := h.live w job stage hw hdir
    obtain ⟨rfl, rfl⟩ := Prod.mk.inj (Option.some.inj (hl'.symm.trans hl))
    exact ⟨hne, hfresh⟩
  cases stage with
  | drawn =>
    simp only [Backups.call, Option.ite_none_right_eq_some, Option.some.injEq] at hs
    obtain ⟨-, rfl⟩ := hs
    exact h.mkdir hinv hw
  | made =>
    simp only [Backups.call] at hs
    split at hs
    next i e hl =>
      simp only [Option.ite_none_right_eq_some, Option.some.injEq] at hs
      obtain ⟨-, rfl⟩ := hs
      exact h.advance hinv hw hl (hlive i e rfl hl).1 rfl fun _ => hnow
    next => cases hs
  | opened =>
    simp only [Backups.call] at hs
    split at hs
    next i e hl =>
      split at hs
      next =>
        cases hs
        exact h.advance_same hw rfl fun _ =>
          ⟨i, e, hl, (hlive i e rfl hl).1, fun hexposed => by cases hexposed⟩
      next =>
        cases hs
        exact h.advance hinv hw hl (hlive i e rfl hl).1 rfl fun hexposed => by cases hexposed
      next => cases hs
    next hl =>
      obtain ⟨i, e, hl', -⟩ := h.live w job _ hw rfl
      rw [hl] at hl'
      cases hl'
  | locked =>
    simp only [Backups.call] at hs
    split at hs
    next i e hl =>
      simp only [Option.ite_none_right_eq_some, Option.some.injEq] at hs
      obtain ⟨-, rfl⟩ := hs
      exact h.advance hinv hw hl (hlive i e rfl hl).1 rfl fun _ => hnow
    next => cases hs
  | copying =>
    cases hs
    obtain ⟨i, e, hl, hne, -⟩ := h.live w job _ hw rfl
    exact h.advance_same hw rfl fun _ => ⟨i, e, hl, hne, fun hexposed => by cases hexposed⟩
  | copied =>
    simp only [Backups.call] at hs
    split at hs
    next i e hl =>
      simp only [Option.ite_none_right_eq_some, Option.some.injEq] at hs
      obtain ⟨-, rfl⟩ := hs
      exact h.advance hinv hw hl (hlive i e rfl hl).1 rfl fun _ => hnow
    next => cases hs
  | synced =>
    simp only [Backups.call] at hs
    split at hs
    next i e hl =>
      simp only [Option.ite_none_right_eq_some, Option.some.injEq] at hs
      obtain ⟨-, rfl⟩ := hs
      exact h.advance_same hw rfl fun _ =>
        ⟨i, e, hl, (hlive i e rfl hl).1, fun hexposed => by cases hexposed⟩
    next => cases hs
  | checked =>
    simp only [Backups.call] at hs
    split at hs
    next i e hl =>
      split at hs
      next =>
        simp only [Option.ite_none_right_eq_some, Option.some.injEq] at hs
        obtain ⟨-, rfl⟩ := hs
        exact h.advance hinv hw hl (hlive i e rfl hl).1 rfl fun _ => hnow
      next => cases hs
    next => cases hs
  | hashed manifest =>
    simp only [Backups.call] at hs
    split at hs
    next i e hl =>
      simp only [Option.ite_none_right_eq_some, Option.some.injEq] at hs
      obtain ⟨-, rfl⟩ := hs
      exact h.advance hinv hw hl (hlive i e rfl hl).1 rfl fun _ => hnow
    next => cases hs
  | writing manifest =>
    simp only [Backups.call] at hs
    split at hs
    next i e hl =>
      cases hs
      exact h.advance hinv hw hl (hlive i e rfl hl).1 rfl fun _ => (hlive i e rfl hl).2 rfl
    next hl =>
      obtain ⟨i, e, hl', -⟩ := h.live w job _ hw rfl
      rw [hl] at hl'
      cases hl'
  | written manifest =>
    simp only [Backups.call] at hs
    split at hs
    next i e hl =>
      cases hs
      refine h.advance hinv hw hl (hlive i e rfl hl).1 rfl fun _ => ?_
      have htime : (e.release w).mtime = e.mtime := by
        unfold Directory.release
        split_ifs <;> rfl
      rw [htime]
      exact (hlive i e rfl hl).2 rfl
    next hl =>
      obtain ⟨i, e, hl', -⟩ := h.live w job _ hw rfl
      rw [hl] at hl'
      cases hl'
  | unlocked manifest =>
    simp only [Backups.call] at hs
    split at hs
    next i e hl =>
      simp only [Option.ite_none_right_eq_some, Option.some.injEq] at hs
      obtain ⟨-, rfl⟩ := hs
      exact h.advance hinv hw hl (hlive i e rfl hl).1 rfl fun _ => hnow
    next => cases hs
  | bare manifest =>
    simp only [Backups.call, Option.ite_none_right_eq_some, Option.some.injEq] at hs
    obtain ⟨-, rfl⟩ := hs
    exact h.advance_same hw rfl fun _ => h.live w job (.bare manifest) hw rfl
  | cleared manifest =>
    simp only [Backups.call] at hs
    split at hs
    next i e hl =>
      simp only [Option.ite_none_right_eq_some, Option.some.injEq] at hs
      obtain ⟨-, rfl⟩ := hs
      exact h.rename hinv hw
    next => cases hs
  | published manifest =>
    cases hs
    refine h.setWorker (fun _ _ => Worker.noConfusion) fun name hd => ?_
    -- What is pruned has the name of a backup.
    have hid : isBackupId name = true := by
      rcases hd with ⟨-, hm⟩ | ⟨hplace, -⟩
      · have hstale := List.mem_of_mem_drop hm
        rw [List.mem_insertionSort, List.mem_filter, Bool.and_eq_true] at hstale
        exact hstale.2.2
      · exact absurd rfl hplace
    refine ⟨fun ht => ?_, fun v job' st hv heq => ?_⟩
    · rw [not_isBackupId_of_temporary ht] at hid
      cases hid
    · have hv' := (quiet_setWorker (fun _ _ => Worker.noConfusion)).workers v job' st hv
      rw [← heq, not_isBackupId_of_temporary (hinv.job v job' st hv').temporary] at hid
      cases hid

/-- The names an attempt that failed removes are dead. -/
theorem Guarded.raise (h : Guarded s) (hinv : Inv s) (hw : s.workers w = .attempt job stage) :
    Guarded ((s.releaseLocks w).setWorker w
      (.removing .cleanup (cleanupNames job stage) .looking)) := by
  refine h.releaseLocks.setWorker (fun _ _ => Worker.noConfusion) fun name hd => ?_
  have hquiet : Quiet (s.releaseLocks w) ((s.releaseLocks w).setWorker w
      (.removing .cleanup (cleanupNames job stage) .looking)) :=
    quiet_setWorker fun _ _ => Worker.noConfusion
  have hjob := hinv.job w job stage hw
  have htemp : Dead ((s.releaseLocks w).setWorker w
      (.removing .cleanup (cleanupNames job stage) .looking)) job.temporaryName := by
    refine ⟨fun _ => hjob.drawn, fun v job' st hv heq => ?_⟩
    have hvw := hinv.distinct v w job' job st stage (hquiet.workers v job' st hv) hw heq
    subst hvw
    rw [workers_setWorker_self] at hv
    cases hv
  have hfinal : Dead ((s.releaseLocks w).setWorker w
      (.removing .cleanup (cleanupNames job stage) .looking)) job.backupId := by
    have hid := hjob.backupId
    refine ⟨fun ht => ?_, fun v job' st hv heq => ?_⟩
    · rw [not_isBackupId_of_temporary ht] at hid
      cases hid
    · rw [← heq, not_isBackupId_of_temporary
        (hinv.job v job' st (hquiet.workers v job' st hv)).temporary] at hid
      cases hid
  have hmem : name ∈ cleanupNames job stage := by
    rcases hd with ⟨-, hm⟩ | ⟨hplace, -⟩
    · exact hm
    · exact absurd rfl hplace
  have hname : name = job.temporaryName ∨ name = job.backupId := by
    cases stage with
    | drawn => cases hmem
    | published manifest => simpa [cleanupNames] using hmem
    | _ => exact .inl (by simpa [cleanupNames] using hmem)
  rcases hname with rfl | rfl
  · exact htemp
  · exact hfinal

omit [Platform] in
/-- **A scavenger leaves attempts that are going on.** -/
theorem Guarded.dead_of_mayRemove (h : Guarded s) (hintact : Intact s)
    (hremove : mayRemove s .scavenge name = true) : Dead s name := by
  simp only [mayRemove, Bool.and_eq_true, Option.any_eq_true, decide_eq_true_eq, Bool.not_eq_true']
    at hremove
  obtain ⟨ht, ⟨inode, d⟩, hl, hstale, hfree⟩ := hremove
  refine ⟨h.temporary name inode (lookup_eq_some.mp hl).1, fun v job stage hv heq => ?_⟩
  subst heq
  cases hdir : stage.hasDirectory with
  | false =>
    have hnone := h.absent v job stage hv hdir
    rw [(lookup_eq_some.mp hl).1] at hnone
    cases hnone
  | true =>
    obtain ⟨i, e, hl', hne, hfresh⟩ := h.live v job stage hv hdir
    obtain ⟨rfl, rfl⟩ := Prod.mk.inj (Option.some.inj (hl'.symm.trans hl))
    cases hexposed : stage.exposed with
    | true => exact absurd hstale (not_le.mpr (hfresh hexposed))
    | false =>
      have hholds := hintact.attempt v job stage i e hv hl hne
      have hheld : e.activeLock = some (some v) := by
        cases stage with
        | locked | copying | copied | synced | checked | hashed => exact hholds.1
        | drawn | published => cases hdir
        | _ => cases hexposed
      rw [hheld] at hfree
      cases hfree

theorem Guarded.step {e : Event} (h : Guarded s) (hinv : Inv s) (hintact : Intact s)
    (hfresh : FreshDraws s e) (hp : Prompt s e) (hs : backups.step s e = some s') : Guarded s' := by
  change Backups.step s e = some s' at hs
  cases e with
  | call w =>
    simp only [Backups.step] at hs
    split at hs
    next job stage hw => exact h.call hinv hw hs
    next => cases hs
  | draw w createdAt token temporaryToken =>
    simp only [Backups.step] at hs
    split at hs
    next =>
      split_ifs at hs with hdate
      · cases hs
        exact h.draw (isTemporaryName_temporaryName hdate.1 token temporaryToken) hfresh
      · cases hs
        exact h.setWorker (fun _ _ => Worker.noConfusion) fun _ hd => hd.elim
    next => cases hs
  | copy w bytes =>
    simp only [Backups.step] at hs
    split at hs
    next job hw =>
      split at hs
      next hl =>
        cases hs
        exact h.write hinv hw hl rfl (.inl rfl)
      next => cases hs
    next => cases hs
  | sidecars w names =>
    simp only [Backups.step] at hs
    split at hs
    next job hw =>
      split at hs
      next hl =>
        cases hs
        exact h.write hinv hw hl rfl (.inl rfl)
      next => cases hs
    next job hw =>
      split at hs
      next hl =>
        cases hs
        exact h.write hinv hw hl rfl (.inl rfl)
      next => cases hs
    next => cases hs
  | flush w n =>
    simp only [Backups.step] at hs
    split at hs
    next job manifest hw =>
      split at hs
      next hl =>
        cases hs
        exact h.write hinv hw hl rfl (.inr rfl)
      next => cases hs
    next => cases hs
  | start w =>
    simp only [Backups.step] at hs
    split at hs
    next =>
      cases hs
      refine h.setWorker (fun _ _ => Worker.noConfusion) fun name hd => ?_
      rcases hd with ⟨herrand, -⟩ | ⟨hplace, -⟩
      · exact absurd rfl herrand
      · exact absurd rfl hplace
    next => cases hs
  | probe w =>
    simp only [Backups.step] at hs
    split at hs
    next errand first rest hw =>
      have hold : errand ≠ .scavenge → ∀ name ∈ first :: rest, Dead s name := fun he name hm =>
        h.doomed w name (by rw [hw]; exact .inl ⟨he, hm⟩)
      split_ifs at hs with hremove
      · cases hs
        refine h.setWorker (fun _ _ => Worker.noConfusion) fun name hd =>
          dead_setWorker ?_ fun _ _ => Worker.noConfusion
        rcases hd with ⟨he, hm⟩ | ⟨-, hhead⟩
        · exact hold he name hm
        · obtain rfl : first = name := Option.some.inj hhead
          by_cases he : errand = .scavenge
          · subst he
            exact h.dead_of_mayRemove hintact hremove
          · exact hold he first List.mem_cons_self
      · cases hs
        refine h.setWorker (fun _ _ => Worker.noConfusion) fun name hd =>
          dead_setWorker ?_ fun _ _ => Worker.noConfusion
        rcases hd with ⟨he, hm⟩ | ⟨hplace, -⟩
        · exact hold he name (List.mem_cons_of_mem _ hm)
        · exact absurd rfl hplace
    next => cases hs
  | enter w =>
    simp only [Backups.step] at hs
    split at hs
    next errand first rest hw =>
      have hold : ∀ name, (Worker.removing errand (first :: rest) .condemned).Dooms name →
          Dead s name := fun name hd => h.doomed w name (by rw [hw]; exact hd)
      have hfirst : Dead s first := hold first (.inr ⟨Place.noConfusion, rfl⟩)
      split at hs
      next inode hn =>
        cases hs
        have henter : Guarded { s with entered := inode :: s.entered } := h.enter hfirst
          (fun name' i hn' hi => hinv.inode_inj name' first i hn' hi) (hinv.inode_lt first inode hn) hn
        refine henter.setWorker (fun _ _ => Worker.noConfusion) fun name hd =>
          dead_setWorker ?_ fun _ _ => Worker.noConfusion
        have hdead : Dead s name := by
          rcases hd with ⟨he, hm⟩ | ⟨-, hhead⟩
          · exact hold name (.inl ⟨he, hm⟩)
          · exact hold name (.inr ⟨Place.noConfusion, hhead⟩)
        exact hdead.mono (fun _ hm => hm) fun _ _ stage hu => .inl ⟨stage, hu⟩
      next =>
        cases hs
        refine h.setWorker (fun _ _ => Worker.noConfusion) fun name hd =>
          dead_setWorker ?_ fun _ _ => Worker.noConfusion
        rcases hd with ⟨he, hm⟩ | ⟨hplace, -⟩
        · exact hold name (.inl ⟨he, List.mem_cons_of_mem _ hm⟩)
        · exact absurd rfl hplace
    next => cases hs
  | unlink w child =>
    simp only [Backups.step] at hs
    split at hs
    next errand todo i hw =>
      split at hs
      next =>
        cases hs
        exact h.unlink (hintact.inside w errand todo i hw)
      next => cases hs
    next => cases hs
  | rmdir w =>
    simp only [Backups.step] at hs
    split at hs
    next errand first rest i hw =>
      have hold : ∀ name, (Worker.removing errand (first :: rest) (.inside i)).Dooms name →
          Dead s name := fun name hd => h.doomed w name (by rw [hw]; exact hd)
      have hpop := h.pop (hold first (.inr ⟨Place.noConfusion, rfl⟩))
      split_ifs at hs
      cases hs
      refine hpop.setWorker (fun _ _ => Worker.noConfusion) fun name hd =>
        dead_setWorker ?_ fun _ _ => Worker.noConfusion
      rcases hd with ⟨he, hm⟩ | ⟨hplace, -⟩
      · exact (hold name (.inl ⟨he, List.mem_cons_of_mem _ hm⟩)).mono (fun _ hm => hm)
          fun _ _ stage hu => .inl ⟨stage, hu⟩
      · exact absurd rfl hplace
    next => cases hs
  | giveUp w =>
    simp only [Backups.step] at hs
    split at hs
    next errand first rest place hw =>
      cases hs
      refine h.setWorker (fun _ _ => Worker.noConfusion) fun name hd =>
        dead_setWorker ?_ fun _ _ => Worker.noConfusion
      rcases hd with ⟨he, hm⟩ | ⟨hplace, -⟩
      · exact h.doomed w name (by rw [hw]; exact .inl ⟨he, List.mem_cons_of_mem _ hm⟩)
      · exact absurd rfl hplace
    next => cases hs
  | finish w =>
    simp only [Backups.step] at hs
    split at hs
    next =>
      cases hs
      exact h.setWorker (fun _ _ => Worker.noConfusion) fun _ hd => hd.elim
    next =>
      cases hs
      exact h.setWorker (fun _ _ => Worker.noConfusion) fun _ hd => hd.elim
    next => cases hs
  | raise w =>
    simp only [Backups.step] at hs
    split at hs
    next job stage hw =>
      cases hs
      exact h.raise hinv hw
    next => cases hs
  | crash w =>
    cases hs
    exact h.releaseLocks.setWorker (fun _ _ => Worker.noConfusion) fun _ hd => hd.elim
  | tick n =>
    cases hs
    exact h.tick hp

end FinancialDashboard.Backups
