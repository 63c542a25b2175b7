import FinancialDashboard.Paisa.Interleaving

/-!
# Sync never loses an update

When the row is clean and its last completion was one that applies to the remote,
the remote holds the projection of the database as it is now, over every
interleaving of commits and runs in which no lease is taken over while it is held.

The argument is about the run that holds the lease, since no other can move.
Until a commit lands its journal is the current projection: `captured = desired`
says that none has landed since the capture, and the projection was read after
it.  A completion clears the row only then.  What the run owns on the way (the
file it published, what the remote loaded) stays as it left it.

A hash no-op relies on the row's `last_remote_hash` being the hash of what the
remote holds.  It is, unless the remote took a POST that was never recorded:
`unrecordedPost` is that flag, and it stays down where every accepted POST gets
its completion.

* `Faithful`: the invariant.
* `faithful_of_step`: one step keeps it.
* `nothing_lost`: what it says of a clean row.
-/

namespace FinancialDashboard.Paisa.World

open PyTime

variable {Config Db : Type} {project : Config → Db → String} {sha256 : String → String}
  {w w' : World Config Db} {token : String} {r q : Run Config} {action : Action}
  {e : Event Config Db}

/-- Core commits and runs that claim a free lease only; no settings change, no reset. -/
def OneLease (w : World Config Db) : Event Config Db → Prop
  | .settings _ _ | .reset _ => False
  | .act _ (.claim _ _ _) => w.row.leaseToken = none
  | _ => True

/-- Every POST the remote takes gets its completion. -/
def PostsRecorded (w : World Config Db) : Event Config Db → Prop
  | .act _ (.reject loaded) => loaded = false
  | .act token .leave => ∀ r, w.runs token = some r → r.phase.isPosted = false
  | _ => True

instance (w : World Config Db) : (e : Event Config Db) → Decidable (OneLease w e)
  | .settings _ _ | .reset _ => .isFalse id
  | .act _ (.claim _ _ _) => inferInstanceAs (Decidable (w.row.leaseToken = none))
  | .act _ .load | .act _ (.heartbeat _ _) | .act _ .capture | .act _ (.guard _)
  | .act _ (.fail _) | .act _ .project | .act _ .publish | .act _ .checkpoint | .act _ .decide
  | .act _ (.noop _) | .act _ .post | .act _ (.reject _) | .act _ (.record _)
  | .act _ (.recordAll _ _) | .act _ (.diagnose _ _) | .act _ .leave => .isTrue trivial
  | .core _ _ | .forceReload _ | .tick _ _ | .request _ _ => .isTrue trivial

/-! ### The invariant -/

/-- A journal for the captured revision `R`: the current projection, if no commit
has landed since the capture. -/
structure Fresh (project : Config → Db → String) (row : SyncState) (config : Config) (db : Db)
    (R : Int) (journal : String) : Prop where
  applied_le : row.appliedRevision ≤ R
  le_desired : R ≤ row.desiredRevision
  current : R = row.desiredRevision → journal = project config db
  projected : ∃ db, journal = project config db

/-- What a run knows in each phase. -/
def Sound (project : Config → Db → String) (w : World Config Db) : Phase → Prop
  | .captured R => w.row.appliedRevision ≤ R ∧ R ≤ w.row.desiredRevision
  | .projected (some R) journal => Fresh project w.row w.config w.db R journal
  | .published (some R) journal | .checkpointed R journal | .posting R journal =>
    Fresh project w.row w.config w.db R journal ∧ w.file = some journal
  | .skipping R journal =>
    Fresh project w.row w.config w.db R journal ∧ (w.unrecordedPost = false → w.remote = some journal)
  | .posted R journal => Fresh project w.row w.config w.db R journal ∧ w.remote = some journal
  | _ => True

/-- The row claims to be in sync with the remote. -/
def InSync (w : World Config Db) : Prop :=
  w.row.appliedRevision = w.row.desiredRevision ∧
    (w.lastCompletion = some .accepted ∨ w.lastCompletion = some .hashNoop)

structure Faithful (project : Config → Db → String) (sha256 : String → String)
    (w : World Config Db) : Prop where
  le : w.row.appliedRevision ≤ w.row.desiredRevision
  holder : ∀ token r, w.runs token = some r → r.phase.held = true →
    w.row.leaseToken = some token
  config : ∀ token r, w.runs token = some r → r.config = w.config
  sound : ∀ token r, w.runs token = some r → Sound project w r.phase
  /-- The hash on the row is that of what the remote holds. -/
  hash : w.unrecordedPost = false →
    (∀ token r, w.runs token = some r → r.phase.isPosted = false) →
    ∀ h, w.row.lastRemoteHash = some h →
      ∃ db, w.remote = some (project w.config db) ∧ sha256 (project w.config db) = h
  current : InSync w → w.unrecordedPost = false → w.remote = some (project w.config w.db)

/-- `Sound` looks at the row, the database, the file and the remote only. -/
theorem sound_put {p : Phase} : Sound project (w.put token q) p ↔ Sound project w p := by
  cases p with
  | projected target journal => cases target <;> exact Iff.rfl
  | published target journal => cases target <;> exact Iff.rfl
  | _ => exact Iff.rfl

theorem sound_of_not_held {p : Phase} (h : p.held = false) : Sound project w p := by
  cases p with
  | waiting | done => trivial
  | _ => cases h

theorem Fresh.of_same {row : SyncState} {config : Config} {db : Db} {R : Int} {journal : String}
    (h : Fresh project w.row config db R journal) (same : w.row.SameRevisions row) :
    Fresh project row config db R journal := by
  refine ⟨?_, ?_, ?_, h.projected⟩
  · rw [same.applied]
    exact h.applied_le
  · rw [same.desired]
    exact h.le_desired
  · rw [same.desired]
    exact h.current

theorem Sound.of_same {row : SyncState} {p : Phase} (h : Sound project w p)
    (same : w.row.SameRevisions row) : Sound project { w with row := row } p := by
  cases p with
  | captured R =>
    change row.appliedRevision ≤ R ∧ R ≤ row.desiredRevision
    rw [same.applied, same.desired]
    exact h
  | projected target journal =>
    cases target with
    | none => trivial
    | some R => exact Fresh.of_same h same
  | published target journal =>
    cases target with
    | none => trivial
    | some R => exact ⟨h.1.of_same same, h.2⟩
  | checkpointed | skipping | posting | posted => exact ⟨h.1.of_same same, h.2⟩
  | waiting | claimed | refused | diagnosing | recorded | done => trivial

theorem isPosted_of_not_held {p : Phase} (h : p.held = false) : p.isPosted = false := by
  cases p with
  | posted => cases h
  | _ => rfl

/-- One lease: no run but the one the row names is under way. -/
theorem Faithful.others_idle (h : Faithful project sha256 w)
    (htoken : w.row.leaseToken = some token) {other : String} {p : Run Config}
    (hne : other ≠ token) (hp : w.runs other = some p) : p.phase.held = false := by
  by_contra hother
  have htheirs := h.holder other p hp (by simpa using hother)
  rw [htoken] at htheirs
  exact hne (Option.some.inj htheirs).symm

/-- So no run is posted, if that one is not. -/
theorem Faithful.none_posted (h : Faithful project sha256 w)
    (htoken : w.row.leaseToken = some token) (hrun : w.runs token = some r)
    (hunposted : r.phase.isPosted = false) {other : String} {p : Run Config}
    (hp : w.runs other = some p) : p.phase.isPosted = false := by
  by_cases hne : other = token
  · subst hne
    obtain rfl := Option.some.inj (hrun.symm.trans hp)
    exact hunposted
  · exact isPosted_of_not_held (h.others_idle htoken hne hp)

/-! ### How a step is shown to keep it -/

/-- The only run under way moved: it is enough to look at where it is now. -/
theorem faithful_of_holder (token : String) (q : Run Config)
    (hruns : w'.runs = Function.update w.runs token (some q)) (hconfig : w'.config = w.config)
    (h : Faithful project sha256 w)
    (hothers : ∀ other p, other ≠ token → w.runs other = some p → p.phase.held = false)
    (hq : q.config = w.config) (le : w'.row.appliedRevision ≤ w'.row.desiredRevision)
    (holder : q.phase.held = true → w'.row.leaseToken = some token)
    (sound : Sound project w' q.phase)
    (hash : w'.unrecordedPost = false → q.phase.isPosted = false →
      ∀ h, w'.row.lastRemoteHash = some h →
        ∃ db, w'.remote = some (project w.config db) ∧ sha256 (project w.config db) = h)
    (current : InSync w' → w'.unrecordedPost = false →
      w'.remote = some (project w.config w'.db)) :
    Faithful project sha256 w' := by
  have cases_runs : ∀ other p, w'.runs other = some p →
      other = token ∧ p = q ∨ other ≠ token ∧ w.runs other = some p := by
    intro other p hp
    rw [hruns] at hp
    exact runs_put_eq (w := w) (r := q) hp
  refine ⟨le, ?_, ?_, ?_, ?_, ?_⟩
  · intro other p hp hheld
    rcases cases_runs other p hp with ⟨rfl, rfl⟩ | ⟨hne, hp⟩
    · exact holder hheld
    · rw [hothers other p hne hp] at hheld
      cases hheld
  · intro other p hp
    rw [hconfig]
    rcases cases_runs other p hp with ⟨rfl, rfl⟩ | ⟨_, hp⟩
    · exact hq
    · exact h.config other p hp
  · intro other p hp
    rcases cases_runs other p hp with ⟨rfl, rfl⟩ | ⟨hne, hp⟩
    · exact sound
    · exact sound_of_not_held (hothers other p hne hp)
  · intro hun hnone
    rw [hconfig]
    refine hash hun (hnone token q ?_)
    rw [hruns]
    exact Function.update_self ..
  · rw [hconfig]
    exact current

/-- A run that holds nothing came or went: nothing else changes. -/
theorem faithful_put_idle (h : Faithful project sha256 w)
    (hidle : ∀ p, w.runs token = some p → p.phase.held = false) (hq : q.phase.held = false)
    (hconfig : q.config = w.config) : Faithful project sha256 (w.put token q) := by
  refine ⟨h.le, ?_, ?_, ?_, ?_, h.current⟩
  · intro other p hp hheld
    rcases runs_put_eq hp with ⟨rfl, rfl⟩ | ⟨_, hp⟩
    · rw [hq] at hheld
      cases hheld
    · exact h.holder other p hp hheld
  · intro other p hp
    rcases runs_put_eq hp with ⟨rfl, rfl⟩ | ⟨_, hp⟩
    · exact hconfig
    · exact h.config other p hp
  · intro other p hp
    rcases runs_put_eq hp with ⟨rfl, rfl⟩ | ⟨_, hp⟩
    · exact sound_of_not_held hq
    · exact sound_put.mpr (h.sound other p hp)
  · intro hun hnone
    refine h.hash hun fun other p hp => ?_
    by_cases hne : other = token
    · subst hne
      exact isPosted_of_not_held (hidle p hp)
    · exact hnone other p (by rw [put_runs_ne w q hne]; exact hp)

/-! ### One action -/

/-- A completion by the holder with a journal the remote holds. -/
theorem faithful_of_completion {R : Int} {journal : String} {row : SyncState} {next : Phase}
    {completion : Completion} {unrecorded : Bool} (h : Faithful project sha256 w)
    (hrun : w.runs token = some r) (hheld : r.phase.held = true)
    (same : (SyncState.catchUp R w.row).SameRevisions row)
    (hfresh : Fresh project w.row w.config w.db R journal)
    (hnext : next = .diagnosing journal ∨ next = .recorded)
    (hremote : unrecorded = false → w.remote = some journal)
    (hhash : unrecorded = false → ∀ h, row.lastRemoteHash = some h →
      ∃ db, w.remote = some (project w.config db) ∧ sha256 (project w.config db) = h) :
    Faithful project sha256
      { w.recorded token r row next with
        lastCompletion := some completion, unrecordedPost := unrecorded } := by
  have happlied : row.appliedRevision = min R w.row.desiredRevision := by
    rw [same.applied]
    exact SyncState.catchUp_appliedRevision R w.row
  have hdesired : row.desiredRevision = w.row.desiredRevision := same.desired
  refine faithful_of_holder token { r with phase := next } rfl rfl h
    (fun other p hne hp => h.others_idle (h.holder token r hrun hheld) hne hp)
    (h.config token r hrun) ?_ ?_ ?_ ?_ ?_
  · change row.appliedRevision ≤ row.desiredRevision
    omega
  · intro _
    have htoken := h.holder token r hrun hheld
    exact same.token.trans htoken
  · rcases hnext with rfl | rfl <;> trivial
  · intro hun _ hash heq
    exact hhash hun hash heq
  · intro hin hun
    have hclean : row.appliedRevision = row.desiredRevision := hin.1
    have hle := hfresh.le_desired
    have hjournal := hfresh.current (by omega)
    exact hjournal ▸ hremote hun

/-- The holder moved on with its journal: the row's revisions, its remote hash and
the remote are as they were. -/
theorem faithful_of_move (row : SyncState) (file : Option String) (next : Phase)
    (h : Faithful project sha256 w) (hrun : w.runs token = some r) (hheld : r.phase.held = true)
    (hunposted : r.phase.isPosted = false) (same : w.row.SameRevisions row)
    (hhash : row.lastRemoteHash = w.row.lastRemoteHash)
    (sound : Sound project { w.recorded token r row next with file := file } next) :
    Faithful project sha256 { w.recorded token r row next with file := file } := by
  refine faithful_of_holder token { r with phase := next } rfl rfl h
    (fun other p hne hp => h.others_idle (h.holder token r hrun hheld) hne hp)
    (h.config token r hrun) ?_ ?_ sound
    ?_ ?_
  · change row.appliedRevision ≤ row.desiredRevision
    rw [same.applied, same.desired]
    exact h.le
  · intro _
    exact same.token.trans (h.holder token r hrun hheld)
  · intro hun _ hash heq
    have htoken := h.holder token r hrun hheld
    exact h.hash hun (fun other p hp => h.none_posted htoken hrun hunposted hp) hash (hhash ▸ heq)
  · intro hin hun
    have hbefore : InSync w := by
      refine ⟨?_, hin.2⟩
      have hclean : row.appliedRevision = row.desiredRevision := hin.1
      rw [same.applied, same.desired] at hclean
      exact hclean
    exact h.current hbefore hun

theorem put_self (hrun : w.runs token = some r) : w.put token r = w := by
  have hruns : Function.update w.runs token (some r) = w.runs := by
    rw [← hrun]
    exact Function.update_eq_self token w.runs
  simp only [put, hruns]

/-- A heartbeat writes the expiry of the lease, and nothing else. -/
theorem faithful_of_heartbeat {row : SyncState} (h : Faithful project sha256 w)
    (same : w.row.SameRevisions row) (hhash : row.lastRemoteHash = w.row.lastRemoteHash) :
    Faithful project sha256 { w with row := row } := by
  refine ⟨?_, ?_, h.config, fun other p hp => (h.sound other p hp).of_same same, ?_, ?_⟩
  · change row.appliedRevision ≤ row.desiredRevision
    rw [same.applied, same.desired]
    exact h.le
  · intro other p hp hheld
    exact same.token.trans (h.holder other p hp hheld)
  · intro hun hnone hash heq
    exact h.hash hun hnone hash (hhash ▸ heq)
  · intro hin hun
    refine h.current ⟨?_, hin.2⟩ hun
    have hclean : row.appliedRevision = row.desiredRevision := hin.1
    rw [same.applied, same.desired] at hclean
    exact hclean

theorem faithful_of_leave (h : Faithful project sha256 w) (hrun : w.runs token = some r) :
    Faithful project sha256 (w.leave token r) := by
  by_cases htoken : w.row.leaseToken = some token
  · have hrow : (w.leave token r).row =
        { w.row with leaseOwner := none, leaseToken := none, leaseExpiresAt := none } :=
      if_pos htoken
    refine faithful_of_holder token { r with phase := .done } rfl rfl h
      (fun other p hne hp => h.others_idle htoken hne hp) (h.config token r hrun) ?_ ?_ trivial
      ?_ ?_
    · rw [hrow]
      exact h.le
    · intro hdone
      cases hdone
    · intro hun _ hash heq
      rw [hrow] at heq
      obtain ⟨hbefore, hunposted⟩ : w.unrecordedPost = false ∧ r.phase.isPosted = false := by
        simpa [leave] using hun
      exact h.hash hbefore (fun other p hp => h.none_posted htoken hrun hunposted hp) hash heq
    · intro hin hun
      obtain ⟨hbefore, _⟩ : w.unrecordedPost = false ∧ r.phase.isPosted = false := by
        simpa [leave] using hun
      unfold InSync at hin
      rw [hrow] at hin
      exact h.current hin hbefore
  · -- a run that never held the lease: its release finds another token, or none
    have hidle : r.phase.held = false := by
      by_contra hheld
      exact htoken (h.holder token r hrun (by simpa using hheld))
    have hleave : w.leave token r = w.put token { r with phase := .done } := by
      have hrow : w.row.releaseLease token = w.row := SyncState.releaseLease_of_ne htoken
      simp only [leave, hrow, isPosted_of_not_held hidle, Bool.or_false, put]
    rw [hleave]
    exact faithful_put_idle h (fun p hp => Option.some.inj (hrun.symm.trans hp) ▸ hidle) rfl
      (h.config token r hrun)

/-- **One action of a run** keeps the invariant, where a lease is claimed free. -/
theorem faithful_of_rule
    (hinj : ∀ config (d d' : Db), sha256 (project config d) = sha256 (project config d') →
      project config d = project config d')
    (h : Faithful project sha256 w) (hrun : w.runs token = some r)
    (hok : OneLease w (.act token action)) (hrule : Rule project sha256 w token r action w') :
    Faithful project sha256 w' := by
  have hsound := h.sound token r hrun
  have hconfig := h.config token r hrun
  cases hrule with
  | claim phase claimed =>
    obtain ⟨_, rfl⟩ := SyncState.claimLease_eq_some_iff.mp claimed
    -- the lease was free, so nobody is under way
    have hfree : w.row.leaseToken = none := hok
    have hidle : ∀ other p, w.runs other = some p → p.phase.held = false := by
      intro other p hp
      by_contra hheld
      have htoken := h.holder other p hp (by simpa using hheld)
      rw [hfree] at htoken
      cases htoken
    refine faithful_of_holder token { r with phase := .claimed } rfl rfl h
      (fun other p _ hp => hidle other p hp) hconfig h.le (fun _ => rfl) trivial ?_ h.current
    intro hun _
    exact h.hash hun fun other p hp => isPosted_of_not_held (hidle other p hp)
  | load held =>
    have hsame : { r with config := w.config } = r := by rw [← hconfig]
    rw [hsame, put_self hrun]
    exact h
  | heartbeat ttl now held =>
    obtain ⟨same, hash⟩ := sameRevisions_heartbeat w.row token ttl now
    exact faithful_of_heartbeat h same hash
  | capture phase =>
    exact faithful_of_move w.row w.file _ h hrun (by simp [phase, Phase.held])
      (by simp [phase, Phase.isPosted]) (sameRevisions_refl _) rfl ⟨h.le, Int.le_refl _⟩
  | @project a target phase =>
    rcases phase with ⟨R, phase, rfl⟩ | ⟨phase, rfl⟩
    · rw [phase] at hsound
      obtain ⟨happlied, hdesired⟩ := hsound
      refine faithful_of_move w.row w.file _ h hrun (by simp [phase, Phase.held])
        (by simp [phase, Phase.isPosted]) (sameRevisions_refl _) rfl ?_
      exact ⟨happlied, hdesired, fun _ => by rw [hconfig]; rfl, w.db, by rw [hconfig]; rfl⟩
    · exact faithful_of_move w.row w.file _ h hrun (by simp [phase, Phase.held])
        (by simp [phase, Phase.isPosted]) (sameRevisions_refl _) rfl trivial
  | @publish a target journal phase =>
    rw [phase] at hsound
    refine faithful_of_move w.row (some journal) _ h hrun (by simp [phase, Phase.held])
      (by simp [phase, Phase.isPosted]) (sameRevisions_refl _) rfl ?_
    cases target with
    | none => trivial
    | some R => exact ⟨hsound, rfl⟩
  | @skip a target journal phase unchanged =>
    rw [phase] at hsound
    obtain ⟨hfresh, _⟩ := hsound
    have hheld : r.phase.held = true := by simp [phase, Phase.held]
    have hunposted : r.phase.isPosted = false := by simp [phase, Phase.isPosted]
    refine faithful_of_move w.row w.file _ h hrun hheld hunposted (sameRevisions_refl _) rfl
      ⟨hfresh, fun hun => ?_⟩
    -- the row's hash is that of what the remote holds, and equal hashes are equal journals
    have htoken := h.holder token r hrun hheld
    obtain ⟨db, hremote, hash⟩ := h.hash hun
      (fun other p hp => h.none_posted htoken hrun hunposted hp) _ unchanged
    obtain ⟨db', rfl⟩ := hfresh.projected
    rw [← hinj _ _ _ hash]
    exact hremote
  | @toPost a target journal phase =>
    have hposting : Sound project w (.posting target journal) := by
      rcases phase with phase | phase <;> rw [phase] at hsound <;> exact hsound
    have hmoves : r.phase.held = true ∧ r.phase.isPosted = false := by
      rcases phase with phase | phase <;> simp [phase, Phase.held, Phase.isPosted]
    exact faithful_of_move w.row w.file _ h hrun hmoves.1 hmoves.2 (sameRevisions_refl _) rfl
      hposting
  | @post a target journal phase =>
    rw [phase] at hsound
    obtain ⟨hfresh, hfile⟩ := hsound
    have htoken := h.holder token r hrun (by simp [phase, Phase.held])
    refine faithful_of_holder token { r with phase := .posted target journal }
      rfl rfl h (fun other p hne hp => h.others_idle htoken hne hp) hconfig h.le
      (fun _ => htoken) ⟨hfresh, hfile⟩ (fun _ hposted => (by cases hposted)) ?_
    intro hin _
    have hclean : w.row.appliedRevision = w.row.desiredRevision := hin.1
    have hle := hfresh.applied_le
    have hge := hfresh.le_desired
    have hjournal := hfresh.current (by omega)
    exact hjournal ▸ hfile
  | @reject target journal loaded phase =>
    have htoken := h.holder token r hrun (by simp [phase, Phase.held])
    have hunposted : r.phase.isPosted = false := by simp [phase, Phase.isPosted]
    refine faithful_of_holder token { r with phase := .refused journal }
      rfl rfl h (fun other p hne hp => h.others_idle htoken hne hp) hconfig h.le
      (fun _ => htoken) trivial ?_ ?_
    · intro hun _ hash heq
      obtain ⟨hbefore, rfl⟩ : w.unrecordedPost = false ∧ loaded = false := by simpa using hun
      exact h.hash hbefore (fun other p hp => h.none_posted htoken hrun hunposted hp) hash heq
    · intro hin hun
      obtain ⟨hbefore, rfl⟩ : w.unrecordedPost = false ∧ loaded = false := by simpa using hun
      exact h.current hin hbefore
  | checkpoint phase holds same hash =>
    rw [phase] at hsound
    exact faithful_of_move _ w.file _ h hrun (by simp [phase, Phase.held])
      (by simp [phase, Phase.isPosted]) same hash ⟨hsound.1.of_same same, hsound.2⟩
  | note held unposted holds same hash =>
    exact faithful_of_move _ w.file _ h hrun held unposted same hash trivial
  | guard now phase holds =>
    have hunposted : r.phase.isPosted = false := by
      rcases phase with phase | ⟨R, phase⟩ <;> simp [phase, Phase.isPosted]
    refine faithful_of_holder token { r with phase := .recorded } rfl rfl h
      (fun other p hne hp => h.others_idle holds hne hp) hconfig ?_ (fun _ => holds) trivial ?_ ?_
    · change (SyncState.catchUp r.guardTarget w.row).appliedRevision ≤ w.row.desiredRevision
      rw [SyncState.catchUp_appliedRevision]
      omega
    · intro hun _
      exact h.hash hun fun other p hp => h.none_posted holds hrun hunposted hp
    · intro hin
      rcases hin.2 with hlast | hlast <;> cases hlast
  | @noop a target journal phase holds =>
    rw [phase] at hsound
    refine faithful_of_completion h hrun (by simp [phase, Phase.held]) (sameRevisions_refl _)
      hsound.1 (.inr rfl) hsound.2 ?_
    intro hun
    exact h.hash hun fun other p hp =>
      h.none_posted holds hrun (by simp [phase, Phase.isPosted]) hp
  | @accept a target journal row next phase holds same hash next_eq =>
    rw [phase] at hsound
    obtain ⟨hfresh, hremote⟩ := hsound
    refine faithful_of_completion h hrun (by simp [phase, Phase.held]) same hfresh next_eq
      (fun _ => hremote) ?_
    intro _ sha heq
    rw [hash] at heq
    obtain ⟨db, rfl⟩ := hfresh.projected
    exact ⟨db, hremote, Option.some.inj heq⟩
  | leave => exact faithful_of_leave h hrun

/-! ### One step -/

/-- A commit moves `desired` past every captured revision. -/
theorem Fresh.of_bumpCore {row : SyncState} {config : Config} {db : Db} {R : Int}
    {journal : String} (h : Fresh project row config db R journal) (db' : Db) (now : Int) :
    Fresh project (row.bumpCore now) config db' R journal := by
  have hdesired : (row.bumpCore now).desiredRevision = row.desiredRevision + 1 := rfl
  have hle := h.le_desired
  refine ⟨h.applied_le, by omega, fun heq => ?_, h.projected⟩
  omega

theorem faithful_of_core (h : Faithful project sha256 w) (db : Db) (now : Int) :
    Faithful project sha256 { w with db := db, row := w.row.bumpCore now } := by
  have hdesired : (w.row.bumpCore now).desiredRevision = w.row.desiredRevision + 1 := rfl
  have hle := h.le
  refine ⟨?_, h.holder, h.config, ?_, h.hash, ?_⟩
  · change w.row.appliedRevision ≤ w.row.desiredRevision + 1
    omega
  · intro other p hp
    have hsound := h.sound other p hp
    revert hsound
    cases p.phase with
    | captured R =>
      intro hsound
      exact ⟨hsound.1, Int.le_trans hsound.2 (Int.le_add_one (Int.le_refl _))⟩
    | projected target journal =>
      cases target with
      | none => exact fun _ => trivial
      | some R => exact fun hsound => Fresh.of_bumpCore hsound db now
    | published target journal =>
      cases target with
      | none => exact fun _ => trivial
      | some R => exact fun hsound => ⟨hsound.1.of_bumpCore db now, hsound.2⟩
    | checkpointed | skipping | posting | posted =>
      exact fun hsound => ⟨hsound.1.of_bumpCore db now, hsound.2⟩
    | waiting | claimed | refused | diagnosing | recorded | done => exact fun _ => trivial
  · intro hin
    have hclean : w.row.appliedRevision = w.row.desiredRevision + 1 := hin.1
    omega

/-- **One step** keeps the invariant. -/
theorem faithful_of_step
    (hinj : ∀ config (d d' : Db), sha256 (project config d) = sha256 (project config d') →
      project config d = project config d')
    (h : Faithful project sha256 w) (hok : OneLease w e)
    (hstep : step project sha256 w e = some w') : Faithful project sha256 w' := by
  cases e with
  | core db now =>
    cases hstep
    exact faithful_of_core h db now
  | settings => exact hok.elim
  | reset => exact hok.elim
  | forceReload enabled =>
    cases hstep
    exact faithful_of_heartbeat h ⟨rfl, rfl, rfl, rfl, rfl⟩ rfl
  | tick token now =>
    simp only [step] at hstep
    split_ifs at hstep with hnone
    obtain ⟨force, _, rfl⟩ := Option.map_eq_some_iff.mp hstep
    refine faithful_put_idle h (fun p hp => ?_) rfl rfl
    rw [hp] at hnone
    cases hnone
  | request token intent =>
    simp only [step] at hstep
    split_ifs at hstep with hnone
    cases hstep
    refine faithful_put_idle h (fun p hp => ?_) rfl rfl
    rw [hp] at hnone
    cases hnone
  | act token action =>
    obtain ⟨r, hrun, hact⟩ := Option.bind_eq_some_iff.mp hstep
    exact faithful_of_rule hinj h hrun hok (rule_of_act hact)

theorem faithful_init (config : Config) (db : Db) (file remote : Option String) (now : Int) :
    Faithful project sha256 (init config db file remote now) where
  le := (by decide : (0 : Int) ≤ 1)
  holder _ _ h := by cases h
  config _ _ h := by cases h
  sound _ _ h := by cases h
  hash _ _ _ h := by cases h
  current h := by rcases h.2 with h | h <;> cases h

/-! ### The accepted POSTs -/

/-- A run that posts and is not abandoned there records it: the one lease it
holds is not taken from it. -/
theorem recorded_of_step (h : Faithful project sha256 w) (hun : w.unrecordedPost = false)
    (hok : PostsRecorded w e) (hstep : step project sha256 w e = some w') :
    w'.unrecordedPost = false := by
  cases e with
  | core | settings | reset | forceReload =>
    cases hstep
    exact hun
  | tick token now =>
    simp only [step] at hstep
    split_ifs at hstep
    obtain ⟨force, _, rfl⟩ := Option.map_eq_some_iff.mp hstep
    exact hun
  | request token intent =>
    simp only [step] at hstep
    split_ifs at hstep
    cases hstep
    exact hun
  | act token action =>
    obtain ⟨r, hrun, hact⟩ := Option.bind_eq_some_iff.mp hstep
    cases rule_of_act hact with
    | @leave a alive why =>
      have hunposted : r.phase.isPosted = false := by
        rcases why with rfl | hstale
        · exact hok r hrun
        · by_contra hposted
          have hheld : r.phase.held = true := by
            by_contra hidle
            exact hposted (isPosted_of_not_held (by simpa using hidle))
          exact hstale (h.holder token r hrun hheld)
      simp [leave, hun, hunposted]
    | @reject target journal loaded phase =>
      obtain rfl : loaded = false := hok
      simpa using hun
    | accept => rfl
    | _ => exact hun

/-! ### Runs -/

/-- **Nothing is lost.**  Take a hash that tells projections apart, and any run
from the first boot in which leases are claimed free.  Where the row is clean and
its last completion was an accepted POST or a hash no-op, the remote holds the
projection of the database as it is now, unless it took a POST nobody recorded;
and it took none where every accepted POST gets its completion. -/
theorem nothing_lost
    (hinj : ∀ config (d d' : Db), sha256 (project config d) = sha256 (project config d') →
      project config d = project config d')
    (config : Config) (db : Db) (file remote : Option String) (now : Int) :
    (∀ w, (interleaving project sha256).Run OneLease (init config db file remote now) w →
      InSync w → w.unrecordedPost = false → w.remote = some (project w.config w.db)) ∧
    (∀ w, (interleaving project sha256).Run (fun s e => OneLease s e ∧ PostsRecorded s e)
        (init config db file remote now) w →
      InSync w → w.remote = some (project w.config w.db)) := by
  have hinit : Faithful project sha256 (init config db file remote now) :=
    faithful_init config db file remote now
  refine ⟨fun w hrun hin hun => ?_, fun w hrun hin => ?_⟩
  · have hw : Faithful project sha256 w :=
      hrun.invariant (fun s e t hs hok hst => faithful_of_step hinj hs hok hst) hinit
    exact hw.current hin hun
  · have hw : Faithful project sha256 w ∧ w.unrecordedPost = false := by
      refine hrun.invariant (I := fun s => Faithful project sha256 s ∧ s.unrecordedPost = false)
        ?_ ⟨hinit, rfl⟩
      rintro s e t ⟨hs, hun⟩ ⟨hok, hposts⟩ hst
      exact ⟨faithful_of_step hinj hs hok hst, recorded_of_step hs hun hposts hst⟩
    exact hw.1.current hin hw.2

/-- A commit lands while a run is under way, so a second run follows it; the last
commit changes nothing in the projection, and the third run is a hash no-op. -/
def threeRuns : List (Event Unit String) :=
  [.tick "a" 10, .act "a" (.claim "coordinator" 90 20), .act "a" .capture, .act "a" .project,
    .core "rent, food" 30, .act "a" .publish, .act "a" .checkpoint, .act "a" .decide,
    .act "a" .post, .act "a" (.record 40), .act "a" (.diagnose .healthy 50), .act "a" .leave,
    .request "b" .manualSync, .act "b" (.claim "web" 90 60), .act "b" .load, .act "b" .capture,
    .act "b" .project, .act "b" .publish, .act "b" .decide, .act "b" .post,
    .act "b" (.recordAll .healthy 70), .act "b" .leave,
    .core "rent, food" 80, .tick "c" (minutes 1), .act "c" (.claim "coordinator" 90 (minutes 1)),
    .act "c" .capture, .act "c" .project, .act "c" .publish, .act "c" .checkpoint,
    .act "c" .decide, .act "c" (.noop (minutes 1)), .act "c" .leave]

theorem nothing_lost_threeRuns : ∃ w : World Unit String,
    (interleaving (fun _ db => db) id).exec (init () "rent" none none 0) threeRuns = some w ∧
      InSync w ∧ w.lastCompletion = some .hashNoop ∧ w.remote = some w.db := by
  have hmeets : (interleaving (fun _ db => db) id).Meets OneLease
      (init () "rent" none none 0) threeRuns := by decide
  have hview : ((interleaving (fun _ db => db) id).exec (init () "rent" none none 0)
      threeRuns).map (fun w => (w.row.appliedRevision, w.row.desiredRevision,
        w.lastCompletion, w.unrecordedPost)) = some (3, 3, some .hashNoop, false) := by decide
  obtain ⟨w, hexec, hrun, hw⟩ := Transition.System.run_of_view hmeets hview
  simp only [Prod.mk.injEq] at hw
  obtain ⟨happlied, hdesired, hlast, hun⟩ := hw
  have hin : InSync w := ⟨by omega, .inr hlast⟩
  have hlost := @nothing_lost Unit String (fun _ db => db) id (fun _ _ _ h => h) () "rent" none
    none 0
  exact ⟨w, hexec, hin, hlast, hlost.1 w hrun hin hun⟩

end FinancialDashboard.Paisa.World
