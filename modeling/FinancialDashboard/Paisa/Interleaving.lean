import FinancialDashboard.Lib.Transition
import FinancialDashboard.Paisa.SyncState
import Mathlib.Logic.Function.Basic

/-!
# Runs that interleave

Any number of runs, automatic and manual, over one sync-state row, one database,
one include file and one remote.  A run is what `coordinator.py` and the audited
operations of `surface.py` do under a lease token, cut at every await; between
any two of its steps the others take theirs, and the triggers fire.

The state is a `World`.  `World.step` is the guarded step function: an `Event` is
a transaction of the dashboard (a core commit, a settings change, an operator's
primitive), the start of a run, or one `Action` of a run that is under way.  What
one action can do is said once, in `Rule`.

Two fields watch and steer nothing: `lastCompletion` is the kind of the last
completion recorded on the row, and `unrecordedPost` says that the remote took a
POST whose completion was never recorded.

* `rule_of_act`: every action is an instance of one of the rules.
* `stale_row_unchanged`: **a run whose token the row no longer carries writes
  nothing on the row**, whatever it does.
-/

namespace FinancialDashboard.Paisa

inductive Intent
  | automatic | manualGenerate | manualSync
  deriving DecidableEq, Repr

/-- How far a run has got.  `target` is the captured revision; a manual generate
captures none. -/
inductive Phase
  /-- The tick has read its snapshot, or the request is waiting for the lease. -/
  | waiting
  | claimed
  | captured (target : Int)
  | projected (target : Option Int) (journal : String)
  | published (target : Option Int) (journal : String)
  | checkpointed (target : Int) (journal : String)
  /-- Decided: the remote holds these bytes already. -/
  | skipping (target : Int) (journal : String)
  | posting (target : Int) (journal : String)
  | refused (journal : String)
  | posted (target : Int) (journal : String)
  | diagnosing (journal : String)
  | recorded
  | done
  deriving DecidableEq, Repr

namespace Phase

/-- Between the claim and the release. -/
def held : Phase → Bool
  | waiting | done => false
  | _ => true

/-- The run still has its publish before it. -/
def publishAhead : Phase → Bool
  | claimed | captured _ | projected _ _ => true
  | _ => false

/-- The remote took the POST, and its completion is not recorded yet. -/
def isPosted : Phase → Bool
  | posted _ _ => true
  | _ => false

end Phase

structure Run (Config : Type) where
  intent : Intent
  /-- The revision the tick read, which a guard may consume. -/
  guardTarget : Int
  forceRemote : Bool
  config : Config
  phase : Phase

inductive Completion
  | guard | hashNoop | accepted
  deriving DecidableEq, Repr

structure World (Config Db : Type) where
  row : SyncState
  config : Config
  db : Db
  file : Option String
  remote : Option String
  /-- The runs by lease token. -/
  runs : String → Option (Run Config)
  lastCompletion : Option Completion
  unrecordedPost : Bool

/-- One step of a run. -/
inductive Action
  | claim (owner : String) (ttl now : Int)
  /-- A manual operation reads the settings under its lease. -/
  | load
  | heartbeat (ttl now : Int)
  | capture
  | guard (now : Int)
  | fail (now : Int)
  | project
  | publish
  | checkpoint
  | decide
  | noop (now : Int)
  | post
  /-- The POST came back as failed; `loaded` when the remote took it all the same. -/
  | reject (loaded : Bool)
  | record (now : Int)
  /-- A manual sync records everything in one transaction. -/
  | recordAll (state : DiagnosisState) (now : Int)
  | diagnose (state : DiagnosisState) (now : Int)
  /-- The end: finished, refused, timed out, cancelled or thrown out. -/
  | leave
  deriving DecidableEq, Repr

inductive Event (Config Db : Type)
  | core (db : Db) (now : Int)
  | settings (config : Config) (now : Int)
  | forceReload (enabled : Bool)
  | reset (now : Int)
  | tick (token : String) (now : Int)
  | request (token : String) (intent : Intent)
  | act (token : String) (action : Action)

namespace World

variable {Config Db : Type} (project : Config → Db → String) (sha256 : String → String)

def put (w : World Config Db) (token : String) (r : Run Config) : World Config Db :=
  { w with runs := Function.update w.runs token (some r) }

/-- The `finally` of a run: release what is still ours. -/
def leave (w : World Config Db) (token : String) (r : Run Config) : World Config Db :=
  { w.put token { r with phase := .done } with
    row := w.row.releaseLease token
    unrecordedPost := w.unrecordedPost || r.phase.isPosted }

/-- A guarded update and where the run is after it; a stale token throws it out. -/
def write (w : World Config Db) (token : String) (r : Run Config)
    (result : Except LeaseStaleError SyncState) (next : Phase) (completion : Option Completion) :
    World Config Db :=
  match result with
  | .ok row =>
    { w.put token { r with phase := next } with
      row
      lastCompletion := completion <|> w.lastCompletion
      unrecordedPost := if completion = some .accepted then false else w.unrecordedPost }
  | .error _ => w.leave token r

/-- The hash `record_diagnosis` is given as the healthy one. -/
def healthyHash (state : DiagnosisState) (hash : String) : Option String :=
  if state = .healthy || state = .accepted then some hash else none

/-- What a manual sync writes with its outcome. -/
def recordManualSync (row : SyncState) (target : Int) (hash token : String)
    (state : DiagnosisState) (now : Int) : Except LeaseStaleError SyncState := do
  let row ← row.recordPublishedHash hash token
  let row ← row.recordAcceptedPost target hash token now
  row.recordDiagnosis state token (healthyHash state hash) now

/-- What a manual sync writes when the remote stage failed. -/
def failManualSync (row : SyncState) (hash token : String) (now : Int) :
    Except LeaseStaleError SyncState := do
  let row ← row.recordPublishedHash hash token
  row.recordPrePostFailure token now

/-- One action of the run `r` with the token `token`. -/
def act (w : World Config Db) (token : String) (r : Run Config) :
    Action → Option (World Config Db)
  | .claim owner ttl now =>
    match r.phase with
    | .waiting => (w.row.claimLease owner token ttl now).map fun row =>
        { w.put token { r with phase := .claimed } with row }
    | _ => none
  | .load =>
    if r.intent ≠ .automatic && r.phase.held then some (w.put token { r with config := w.config })
    else none
  | .heartbeat ttl now =>
    if r.phase.held then some { w with row := w.row.heartbeatLease token ttl now } else none
  | .capture =>
    match r.phase, r.intent with
    | .claimed, .automatic | .claimed, .manualSync =>
      some (w.put token { r with phase := .captured w.row.captureTarget })
    | _, _ => none
  | .guard now =>
    match r.phase, r.intent with
    | .claimed, .automatic | .captured _, .automatic =>
      some (w.write token r (w.row.recordGuardCaughtUp r.guardTarget token now) .recorded
        (some .guard))
    | _, _ => none
  | .fail now =>
    match r.phase, r.intent with
    | .claimed, .automatic | .captured _, .automatic | .captured _, .manualSync
    | .refused _, .automatic =>
      some (w.write token r (w.row.recordPrePostFailure token now) .recorded none)
    | .refused journal, .manualSync =>
      some (w.write token r (failManualSync w.row (sha256 journal) token now) .recorded none)
    | _, _ => none
  | .project =>
    match r.phase, r.intent with
    | .captured target, _ =>
      some (w.put token { r with phase := .projected (some target) (project r.config w.db) })
    | .claimed, .manualGenerate =>
      some (w.put token { r with phase := .projected none (project r.config w.db) })
    | _, _ => none
  | .publish =>
    match r.phase with
    | .projected target journal =>
      some { w.put token { r with phase := .published target journal } with file := some journal }
    | _ => none
  | .checkpoint =>
    match r.phase, r.intent with
    | .published (some target) journal, .automatic =>
      some (w.write token r (w.row.recordPublishedHash (sha256 journal) token)
        (.checkpointed target journal) none)
    | .published none journal, .manualGenerate =>
      some (w.write token r (w.row.recordPublishedHash (sha256 journal) token) .recorded none)
    | _, _ => none
  | .decide =>
    match r.phase, r.intent with
    | .checkpointed target journal, .automatic =>
      let skip := !r.forceRemote && shouldSkipRemotePost (some (sha256 journal)) w.row
      some (w.put token { r with
        phase := if skip then .skipping target journal else .posting target journal })
    | .published (some target) journal, .manualSync =>
      some (w.put token { r with phase := .posting target journal })
    | _, _ => none
  | .noop now =>
    match r.phase with
    | .skipping target _ =>
      some (w.write token r (w.row.recordHashNoop target token now) .recorded (some .hashNoop))
    | _ => none
  | .post =>
    match r.phase with
    | .posting target journal =>
      some { w.put token { r with phase := .posted target journal } with remote := w.file }
    | _ => none
  | .reject loaded =>
    match r.phase with
    | .posting _ journal =>
      some { w.put token { r with phase := .refused journal } with
        remote := if loaded then w.file else w.remote
        unrecordedPost := w.unrecordedPost || loaded }
    | _ => none
  | .record now =>
    match r.phase, r.intent with
    | .posted target journal, .automatic =>
      some (w.write token r (w.row.recordAcceptedPost target (sha256 journal) token now)
        (.diagnosing journal) (some .accepted))
    | _, _ => none
  | .recordAll state now =>
    match r.phase, r.intent with
    | .posted target journal, .manualSync =>
      some (w.write token r (recordManualSync w.row target (sha256 journal) token state now)
        .recorded (some .accepted))
    | _, _ => none
  | .diagnose state now =>
    match r.phase with
    | .diagnosing journal =>
      some (w.write token r (w.row.recordDiagnosis state token
        (healthyHash state (sha256 journal)) now)
        .recorded none)
    | _ => none
  | .leave => if r.phase = .done then none else some (w.leave token r)

/-- The gate of a tick, as far as the row decides it: whether the run is forced. -/
def tickForce (row : SyncState) (now : Int) : Option Bool :=
  let eligibility := reconcileEligibility row now
  if eligibility.due then some (row.forceReload || eligibility.reason = .periodicReload) else none

def step (w : World Config Db) : Event Config Db → Option (World Config Db)
  | .core db now => some { w with db, row := w.row.bumpCore now }
  | .settings config now => some { w with config, row := w.row.bumpSettings now }
  | .forceReload enabled => some { w with row := w.row.setForceReload enabled }
  | .reset now => some { w with row := w.row.resetSyncState now }
  | .tick token now =>
    if (w.runs token).isNone then
      (tickForce w.row now).map fun forceRemote =>
        w.put token ⟨.automatic, w.row.desiredRevision, forceRemote, w.config, .waiting⟩
    else none
  | .request token intent =>
    if (w.runs token).isNone && intent ≠ .automatic then
      some (w.put token ⟨intent, 0, true, w.config, .waiting⟩)
    else none
  | .act token action => (w.runs token).bind fun r => act project sha256 w token r action

end World

/-- The dashboard with its runs, as a transition system. -/
def interleaving {Config Db : Type} (project : Config → Db → String) (sha256 : String → String) :
    Transition.System (World Config Db) (Event Config Db) where
  step := World.step project sha256

/-- The first boot: the seeded row, no runs, whatever is on disk and at the remote. -/
def World.init {Config Db : Type} (config : Config) (db : Db) (file remote : Option String)
    (now : Int) : World Config Db where
  row := SyncState.seed now
  config := config
  db := db
  file := file
  remote := remote
  runs _ := none
  lastCompletion := none
  unrecordedPost := false

/-! ### What one action can do -/

/-- The two rows agree on the revisions, the dirty window and the lease token. -/
structure SyncState.SameRevisions (s t : SyncState) : Prop where
  applied : t.appliedRevision = s.appliedRevision
  desired : t.desiredRevision = s.desiredRevision
  firstDirty : t.firstDirtyAt = s.firstDirtyAt
  lastDirty : t.lastDirtyAt = s.lastDirtyAt
  token : t.leaseToken = s.leaseToken

namespace World

variable {Config Db : Type} {project : Config → Db → String} {sha256 : String → String}
  {w w' : World Config Db} {token : String} {r : Run Config} {action : Action}

/-- A guarded update by the holder: the row `row`, and the run in its next phase. -/
def recorded (w : World Config Db) (token : String) (r : Run Config) (row : SyncState)
    (next : Phase) : World Config Db :=
  { w.put token { r with phase := next } with row }

/-- What one action of a run can do to the world. -/
inductive Rule (project : Config → Db → String) (sha256 : String → String) (w : World Config Db)
    (token : String) (r : Run Config) : Action → World Config Db → Prop
  | claim {owner : String} {ttl now : Int} {row : SyncState} (phase : r.phase = .waiting)
      (claimed : w.row.claimLease owner token ttl now = some row) :
      Rule project sha256 w token r (.claim owner ttl now) (w.recorded token r row .claimed)
  | load {a : Action} (held : r.phase.held = true) :
      Rule project sha256 w token r a (w.put token { r with config := w.config })
  | heartbeat {a : Action} (ttl now : Int) (held : r.phase.held = true) :
      Rule project sha256 w token r a { w with row := w.row.heartbeatLease token ttl now }
  | capture {a : Action} (phase : r.phase = .claimed) :
      Rule project sha256 w token r a
        (w.put token { r with phase := .captured w.row.desiredRevision })
  | project {a : Action} {target : Option Int}
      (phase : (∃ R, r.phase = .captured R ∧ target = some R) ∨
        r.phase = .claimed ∧ target = none) :
      Rule project sha256 w token r a
        (w.put token { r with phase := .projected target (project r.config w.db) })
  | publish {a : Action} {target : Option Int} {journal : String}
      (phase : r.phase = .projected target journal) :
      Rule project sha256 w token r a
        { w.put token { r with phase := .published target journal } with file := some journal }
  | skip {a : Action} {target : Int} {journal : String}
      (phase : r.phase = .checkpointed target journal)
      (unchanged : w.row.lastRemoteHash = some (sha256 journal)) :
      Rule project sha256 w token r a (w.put token { r with phase := .skipping target journal })
  | toPost {a : Action} {target : Int} {journal : String}
      (phase : r.phase = .checkpointed target journal ∨
        r.phase = .published (some target) journal) :
      Rule project sha256 w token r a (w.put token { r with phase := .posting target journal })
  | post {a : Action} {target : Int} {journal : String}
      (phase : r.phase = .posting target journal) :
      Rule project sha256 w token r a
        { w.put token { r with phase := .posted target journal } with remote := w.file }
  | reject {target : Int} {journal : String} (loaded : Bool)
      (phase : r.phase = .posting target journal) :
      Rule project sha256 w token r (.reject loaded)
        { w.put token { r with phase := .refused journal } with
          remote := if loaded then w.file else w.remote
          unrecordedPost := w.unrecordedPost || loaded }
  | checkpoint {a : Action} {target : Int} {journal : String} {row : SyncState}
      (phase : r.phase = .published (some target) journal)
      (holds : w.row.leaseToken = some token) (same : w.row.SameRevisions row)
      (hash : row.lastRemoteHash = w.row.lastRemoteHash) :
      Rule project sha256 w token r a (w.recorded token r row (.checkpointed target journal))
  | note {a : Action} {row : SyncState} (held : r.phase.held = true)
      (unposted : r.phase.isPosted = false)
      (holds : w.row.leaseToken = some token) (same : w.row.SameRevisions row)
      (hash : row.lastRemoteHash = w.row.lastRemoteHash) :
      Rule project sha256 w token r a (w.recorded token r row .recorded)
  | guard (now : Int) (phase : r.phase = .claimed ∨ ∃ R, r.phase = .captured R)
      (holds : w.row.leaseToken = some token) :
      Rule project sha256 w token r (.guard now)
        { w.recorded token r (SyncState.catchUp r.guardTarget w.row) .recorded with
          lastCompletion := some .guard }
  | noop {a : Action} {target : Int} {journal : String}
      (phase : r.phase = .skipping target journal)
      (holds : w.row.leaseToken = some token) :
      Rule project sha256 w token r a
        { w.recorded token r (SyncState.catchUp target w.row) .recorded with
          lastCompletion := some .hashNoop }
  | accept {a : Action} {target : Int} {journal : String} {row : SyncState} {next : Phase}
      (phase : r.phase = .posted target journal) (holds : w.row.leaseToken = some token)
      (same : (SyncState.catchUp target w.row).SameRevisions row)
      (hash : row.lastRemoteHash = some (sha256 journal))
      (next_eq : next = .diagnosing journal ∨ next = .recorded) :
      Rule project sha256 w token r a
        { w.recorded token r row next with
          lastCompletion := some .accepted, unrecordedPost := false }
  | leave {a : Action} (alive : r.phase ≠ .done)
      (why : a = .leave ∨ w.row.leaseToken ≠ some token) :
      Rule project sha256 w token r a (w.leave token r)

/-- A guarded update goes through under the row's own token, and throws the run
out under any other. -/
theorem write_guarded (update : SyncState → SyncState) (next : Phase)
    (completion : Option Completion) :
    (w.row.leaseToken = some token ∧ w.write token r (w.row.guarded token update) next completion =
      { w.recorded token r (update w.row) next with
        lastCompletion := completion <|> w.lastCompletion
        unrecordedPost := if completion = some .accepted then false else w.unrecordedPost }) ∨
    (w.row.leaseToken ≠ some token ∧
      w.write token r (w.row.guarded token update) next completion = w.leave token r) := by
  by_cases h : w.row.leaseToken = some token
  · exact .inl ⟨h, by rw [SyncState.guarded_of_eq h]; rfl⟩
  · exact .inr ⟨h, by rw [SyncState.guarded_of_ne h]; rfl⟩

theorem sameRevisions_refl (s : SyncState) : s.SameRevisions s := ⟨rfl, rfl, rfl, rfl, rfl⟩

theorem sameRevisions_heartbeat (s : SyncState) (token : String) (ttl now : Int) :
    s.SameRevisions (s.heartbeatLease token ttl now) ∧
      (s.heartbeatLease token ttl now).lastRemoteHash = s.lastRemoteHash := by
  unfold SyncState.heartbeatLease
  split_ifs
  · exact ⟨⟨rfl, rfl, rfl, rfl, rfl⟩, rfl⟩
  · exact ⟨sameRevisions_refl s, rfl⟩

theorem sameRevisions_diagnosed (state : DiagnosisState) (hash : Option String) (now : Int)
    (s : SyncState) : s.SameRevisions (SyncState.diagnosed state hash now s) ∧
      (SyncState.diagnosed state hash now s).lastRemoteHash = s.lastRemoteHash := by
  cases state <;> exact ⟨⟨rfl, rfl, rfl, rfl, rfl⟩, rfl⟩

theorem recordManualSync_eq (row : SyncState) (target : Int) (hash : String)
    (state : DiagnosisState) (now : Int) :
    recordManualSync row target hash token state now = row.guarded token fun s =>
      SyncState.diagnosed state (healthyHash state hash) now
        (SyncState.catchUp target (SyncState.stampRemote hash now
          { s with lastPublishedHash := some hash })) := by
  have hcaught : ∀ s : SyncState, (SyncState.catchUp target
      (SyncState.stampRemote hash now s)).leaseToken = s.leaseToken := fun _ => rfl
  calc recordManualSync row target hash token state now
      = (row.guarded token (fun s => { s with lastPublishedHash := some hash }) >>= fun t =>
          t.guarded token fun s => SyncState.diagnosed state
            (healthyHash state hash) now
            (SyncState.catchUp target (SyncState.stampRemote hash now s))) := by
        unfold recordManualSync
        congr 1
        funext t
        exact SyncState.guarded_bind_guarded hcaught
    _ = _ := SyncState.guarded_bind_guarded fun _ => rfl

theorem failManualSync_eq (row : SyncState) (hash : String) (now : Int) :
    failManualSync row hash token now = row.guarded token fun s =>
      { SyncState.armBackoff now { s with lastPublishedHash := some hash } with
        lastRemoteAttemptAt := some now } :=
  SyncState.guarded_bind_guarded fun _ => rfl

/-- The no-op is taken only on a row that carries the hash. -/
theorem lastRemoteHash_of_skip {force : Bool} {hash : String} {row : SyncState}
    (h : (!force && shouldSkipRemotePost (some hash) row) = true) :
    row.lastRemoteHash = some hash := by
  cases hr : row.lastRemoteHash with
  | none => simp [shouldSkipRemotePost, hr] at h
  | some remote =>
    simp only [shouldSkipRemotePost, hr, Bool.and_eq_true, decide_eq_true_eq] at h
    rw [h.2]

/-- **Every action of a run is one of the rules.** -/
theorem rule_of_act (h : act project sha256 w token r action = some w') :
    Rule project sha256 w token r action w' := by
  -- a guarded update throws the run out, or the run holds the lease
  have thrown : ∀ {action : Action} {update : SyncState → SyncState} {next : Phase}
      {completion : Option Completion}, r.phase ≠ .done → (w.row.leaseToken = some token →
        Rule project sha256 w token r action { w.recorded token r (update w.row) next with
          lastCompletion := completion <|> w.lastCompletion
          unrecordedPost := if completion = some .accepted then false else w.unrecordedPost }) →
      Rule project sha256 w token r action
        (w.write token r (w.row.guarded token update) next completion) := by
    intro action update next completion alive hrule
    rcases @write_guarded _ _ w token r update next completion with
      ⟨holds, heq⟩ | ⟨stale, heq⟩
    · rw [heq]
      exact hrule holds
    · rw [heq]
      exact .leave alive (.inr stale)
  cases action with
  | claim owner ttl now =>
    simp only [act] at h
    split at h
    · obtain ⟨row, hrow, rfl⟩ := Option.map_eq_some_iff.mp h
      exact .claim ‹_› hrow
    · cases h
  | load =>
    simp only [act] at h
    split_ifs at h with hc
    cases h
    exact .load (by simp_all)
  | heartbeat ttl now =>
    simp only [act] at h
    split_ifs at h with hc
    cases h
    exact .heartbeat ttl now hc
  | capture =>
    simp only [act] at h
    split at h
    · cases h
      exact .capture ‹_›
    · cases h
      exact .capture ‹_›
    · cases h
  | guard now =>
    simp only [act] at h
    split at h
    · cases h
      rename_i hp _
      rw [SyncState.recordGuardCaughtUp_eq]
      exact thrown (by simp [hp]) fun holds => .guard now (.inl hp) holds
    · cases h
      rename_i hp _
      rw [SyncState.recordGuardCaughtUp_eq]
      exact thrown (by simp [hp]) fun holds => .guard now (.inr ⟨_, hp⟩) holds
    · cases h
  | fail now =>
    simp only [act] at h
    split at h
    case h_5 =>
      cases h
      rename_i hp _
      rw [failManualSync_eq]
      exact thrown (by simp [hp]) fun holds => .note (by simp [hp, Phase.held])
        (by simp [hp, Phase.isPosted]) holds ⟨rfl, rfl, rfl, rfl, rfl⟩ rfl
    case h_6 => cases h
    all_goals
      cases h
      rename_i hp _
      exact thrown (by simp [hp]) fun holds => .note (by simp [hp, Phase.held])
        (by simp [hp, Phase.isPosted]) holds ⟨rfl, rfl, rfl, rfl, rfl⟩ rfl
  | project =>
    simp only [act] at h
    split at h
    · cases h
      exact .project (.inl ⟨_, ‹_›, rfl⟩)
    · cases h
      exact .project (.inr ⟨‹_›, rfl⟩)
    · cases h
  | publish =>
    simp only [act] at h
    split at h
    · cases h
      exact .publish ‹_›
    · cases h
  | checkpoint =>
    simp only [act] at h
    split at h
    · cases h
      rename_i hp _
      exact thrown (by simp [hp]) fun holds => .checkpoint hp holds ⟨rfl, rfl, rfl, rfl, rfl⟩ rfl
    · cases h
      rename_i hp _
      exact thrown (by simp [hp]) fun holds => .note (by simp [hp, Phase.held])
        (by simp [hp, Phase.isPosted]) holds ⟨rfl, rfl, rfl, rfl, rfl⟩ rfl
    · cases h
  | decide =>
    simp only [act] at h
    split at h
    · rename_i target journal hp _
      cases h
      by_cases hs : (!r.forceRemote &&
          shouldSkipRemotePost (some (sha256 journal)) w.row) = true
      · rw [if_pos hs]
        exact .skip hp (lastRemoteHash_of_skip hs)
      · rw [if_neg hs]
        exact .toPost (.inl hp)
    · cases h
      exact .toPost (.inr ‹_›)
    · cases h
  | noop now =>
    simp only [act] at h
    split at h
    · cases h
      rename_i hp
      rw [SyncState.recordHashNoop_eq]
      exact thrown (by simp [hp]) fun holds => .noop hp holds
    · cases h
  | post =>
    simp only [act] at h
    split at h
    · cases h
      exact .post ‹_›
    · cases h
  | reject loaded =>
    simp only [act] at h
    split at h
    · cases h
      exact .reject loaded ‹_›
    · cases h
  | record now =>
    simp only [act] at h
    split at h
    · cases h
      rename_i hp _
      rw [SyncState.recordAcceptedPost_eq]
      exact thrown (by simp [hp]) fun holds =>
        .accept hp holds ⟨rfl, rfl, rfl, rfl, rfl⟩ rfl (.inl rfl)
    · cases h
  | recordAll state now =>
    simp only [act] at h
    split at h
    · cases h
      rename_i target journal hp _
      rw [recordManualSync_eq]
      refine thrown (by simp [hp]) fun holds => ?_
      obtain ⟨same, hash⟩ := sameRevisions_diagnosed state
        (healthyHash state (sha256 journal)) now
        (SyncState.catchUp target (SyncState.stampRemote (sha256 journal) now
          { w.row with lastPublishedHash := some (sha256 journal) }))
      exact .accept hp holds ⟨same.1, same.2, same.3, same.4, same.5⟩ hash (.inr rfl)
    · cases h
  | diagnose state now =>
    simp only [act] at h
    split at h
    · cases h
      rename_i journal hp
      obtain ⟨same, hash⟩ := sameRevisions_diagnosed state
        (healthyHash state (sha256 journal)) now w.row
      exact thrown (by simp [hp]) fun holds => .note (by simp [hp, Phase.held])
        (by simp [hp, Phase.isPosted]) holds same hash
    · cases h
  | leave =>
    simp only [act] at h
    split_ifs at h with hd
    cases h
    exact .leave hd (.inl rfl)

/-! ### Lookup after a step -/

@[simp] theorem put_runs_self (w : World Config Db) (token : String) (r : Run Config) :
    (w.put token r).runs token = some r := Function.update_self ..

theorem put_runs_ne (w : World Config Db) {token other : String} (r : Run Config)
    (h : other ≠ token) : (w.put token r).runs other = w.runs other :=
  Function.update_of_ne h ..

/-- A run found after a step is the one that moved, or one that was there. -/
theorem runs_put_eq {other : String} {q : Run Config} (h : (w.put token r).runs other = some q) :
    other = token ∧ q = r ∨ other ≠ token ∧ w.runs other = some q := by
  by_cases hne : other = token
  · subst hne
    rw [put_runs_self] at h
    exact .inl ⟨rfl, (Option.some.inj h).symm⟩
  · rw [put_runs_ne w r hne] at h
    exact .inr ⟨hne, h⟩

/-! ### The fence on the row -/

/-- The run is under way and the row no longer carries its token: the lease was
reclaimed, or reset. -/
def Stale (w : World Config Db) (token : String) : Prop :=
  ∃ r, w.runs token = some r ∧ r.phase.held = true ∧ w.row.leaseToken ≠ some token

/-- **A run whose token the row no longer carries writes nothing on the row.** -/
theorem stale_row_unchanged (hheld : r.phase.held = true) (hstale : w.row.leaseToken ≠ some token)
    (h : Rule project sha256 w token r action w') : w'.row = w.row := by
  cases h with
  | claim phase => simp [phase, Phase.held] at hheld
  | heartbeat ttl now => exact SyncState.heartbeatLease_of_ne hstale
  | leave => exact SyncState.releaseLease_of_ne hstale
  | checkpoint _ holds | note _ _ holds | guard _ _ holds | noop _ holds | accept _ holds =>
    exact absurd holds hstale
  | load | capture | project | publish | skip | toPost | post | reject => rfl

end World

end FinancialDashboard.Paisa
