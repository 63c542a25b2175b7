import FinancialDashboard.Paisa.Orchestrator
import FinancialDashboard.Paisa.SyncState

/-!
# One automatic attempt

`services/paisa/coordinator.py` ticks, claims the lease, runs one staged
reconcile and records its outcome on the row.  `tick`, `attempt`,
`runAttemptStages` and the three `record…Outcome` here are those functions, as
programs over the row that can be left by an exception.

The outside of an attempt is an `Env`: the clock readings, the token, the
answers of the three stages (the coordinator takes them as injectable seams),
and, at every `Point` where the program awaits,

* `commits`: what other transactions do to the row there, and
* `interrupt`: what ends the attempt there, if anything does: the timeout of the
  whole attempt, a cancellation, or an exception of the database or the client.

So the failure of any await is an input, and an attempt is a function of it.
-/

namespace FinancialDashboard.Paisa

open PyTime PyText

/-! ### Results -/

inductive Status
  | success | failure | skipped
  deriving DecidableEq, Repr

inductive AttemptOutcome
  | sync (outcome : SyncOutcome)
  | error | staleLease | skippedUnchanged | generateFailed
  deriving DecidableEq, Repr

inductive Stage
  | preflight | generate
  deriving DecidableEq, Repr

/-- The `details` of an audit row. -/
inductive Details
  | empty
  | reason (reason : String)
  | refused (reason : Option String) (stage : Stage)
  | exception (type : String)
  | remote (report : RemoteSyncReport)
  deriving DecidableEq, Repr

/-- `AttemptResult` of an attempt that was made. -/
structure AttemptResult where
  status : Status
  outcome : AttemptOutcome
  outputHash : Option String
  emittedCount : Option Nat
  details : Details
  error : Option String
  notifyFailure : Bool
  deriving DecidableEq, Repr

/-- `FAILURE_OUTCOMES`. -/
def failureOutcomes : List SyncOutcome :=
  [.unreachable, .readonly, .unsupportedBackend, .publishFailed, .syncRejected, .diagnosisFailed]

/-- `GUARD_OUTCOMES`. -/
def guardOutcomes : List SyncOutcome := [.disabled, .connectOnly, .notConfigured]

/-- `sanitize_error`: collapse white space and cap the length at 2000. -/
def sanitizeError [UnicodeTables] (text : String) : String :=
  let words := (text.toList.splitOnP UnicodeTables.isSpace).filter (· ≠ [])
  let collapsed := (words.intersperse [' ']).flatten
  String.ofList (if 2000 < collapsed.length then collapsed.take 1997 ++ "...".toList else collapsed)

/-- Classify a refusal by the words of its reason. -/
def guardOutcomeToken [UnicodeTables] (reason : Option String) : Option SyncOutcome :=
  let text := lower (reason.getD "")
  if text = "" then none
  else if contains "disabled" text then some .disabled
  else if contains "connect_only" text then some .connectOnly
  else if contains "not_configured" text || contains "generated_path" text ||
      contains "cutover" text || contains "selected account" text then some .notConfigured
  else none

/-- The diagnosis state an accepted POST records, and the healthy hash. -/
def classifyDiagnosis (remote : RemoteSyncReport) (bodyHash : String) :
    DiagnosisState × Option String :=
  match remote.diagnosisOk with
  | some true =>
    (if 0 < remote.diagnosisAccepted.getD 0 then .accepted else .healthy, some bodyHash)
  | some false => (.fatal, none)
  | none => (.unknown, none)

/-! ### The outside of an attempt -/

/-- Where the program awaits, in the order it gets there.  `record` is the write
of the outcome, whichever it is. -/
inductive Point
  | claim | lastRun | client | preflight | captureTarget | generate | publishedHash
  | readSyncState | remote | record | diagnosis | close | release
  deriving DecidableEq, Repr

/-- A transaction of somebody else on the row while an attempt runs. -/
inductive Commit
  | core (now : Int)
  | settings (now : Int)
  | forceReload (enabled : Bool)
  | heartbeat (now : Int)
  /-- A peer's claim that went through, the lease having expired. -/
  | reclaimed (owner token : String) (expiresAt : Int)
  deriving DecidableEq, Repr

inductive Interrupt
  | timeout
  | cancelled
  | raised (exc : Raised)
  deriving DecidableEq, Repr

structure Env where
  owner : String
  token : String
  leaseTtl : Int
  canProject : Bool
  autoSyncEnabled : Bool
  minIntervalMinutes : Int
  /-- The clock as `_tick`, `_attempt` and `_run_attempt_stages` read it. -/
  tickNow : Int
  claimNow : Int
  stageNow : Int
  preflight : Except Raised PreflightReport
  generate : Except Raised GenerateResult
  syncRemote : ProjectionReport → Except Raised RemoteSyncReport
  commits : Point → List Commit
  interrupt : Point → Option Interrupt
  /-- The clock does not run backwards. -/
  tick_le_claim : tickNow ≤ claimNow
  claim_le_stage : claimNow ≤ stageNow
  /-- Tokens are never reused. -/
  reclaimed_fresh : ∀ p owner expiresAt, .reclaimed owner token expiresAt ∉ commits p

namespace SyncState

/-- One transaction of somebody else. -/
def commit (token : String) (ttl : Int) (s : SyncState) : Commit → SyncState
  | .core now => s.bumpCore now
  | .settings now => s.bumpSettings now
  | .forceReload enabled => s.setForceReload enabled
  | .heartbeat now => s.heartbeatLease token ttl now
  | .reclaimed owner peer expiresAt =>
    { s with leaseOwner := some owner, leaseToken := some peer, leaseExpiresAt := some expiresAt }

end SyncState

/-- What leaves `_run_attempt_stages` other than by returning. -/
inductive Exit
  | interrupt (i : Interrupt)
  | leaseStale (e : LeaseStaleError)
  deriving DecidableEq, Repr

/-- A program over the row.  An exception leaves the row as it is by then. -/
abbrev Attempt := EStateM Exit SyncState

namespace Env

variable (env : Env)

/-- The row once the others' transactions at `p` are through. -/
def settled (p : Point) (s : SyncState) : SyncState :=
  (env.commits p).foldl (SyncState.commit env.token env.leaseTtl) s

/-- Await at `p`. -/
def reach (p : Point) : Attempt Unit := fun s =>
  match env.interrupt p with
  | none => .ok () (env.settled p s)
  | some i => .error (.interrupt i) (env.settled p s)

end Env

/-- A stage's answer, or what it raises. -/
def Attempt.ofExcept {α : Type} (x : Except Raised α) : Attempt α := fun s =>
  match x with
  | .ok a => .ok a s
  | .error exc => .error (.interrupt (.raised exc)) s

/-- One token-guarded update, committed. -/
def Attempt.write (update : SyncState → Except LeaseStaleError SyncState) : Attempt Unit := fun s =>
  match update s with
  | .ok t => .ok () t
  | .error e => .error (.leaseStale e) s

/-! ### The stages -/

section

variable [UnicodeTables] (env : Env)

/-- `_record_preflight_outcome`: by the typed outcome. -/
def recordPreflightOutcome (pre : PreflightReport) (guardTargetRevision : Int) :
    Attempt AttemptResult := do
  env.reach .record
  match pre.outcome.filter (· ∈ guardOutcomes) with
  | some guard =>
    Attempt.write fun s => s.recordGuardCaughtUp guardTargetRevision env.token env.stageNow
    return ⟨.skipped, .sync guard, none, none, .refused pre.reason .preflight, none, false⟩
  | none =>
    Attempt.write fun s => s.recordPrePostFailure env.token env.stageNow
    return ⟨.failure, (pre.outcome.map .sync).getD .error, none, none,
      .refused pre.reason .preflight, pre.reason.map sanitizeError,
      pre.outcome.all (· ∈ failureOutcomes)⟩

/-- `_record_generate_outcome`: by the words of the reason. -/
def recordGenerateOutcome (generated : GenerateResult) (guardTargetRevision : Int) :
    Attempt AttemptResult := do
  env.reach .record
  match guardOutcomeToken generated.reason with
  | some guard =>
    Attempt.write fun s => s.recordGuardCaughtUp guardTargetRevision env.token env.stageNow
    return ⟨.skipped, .sync guard, none, none, .refused generated.reason .generate, none, false⟩
  | none =>
    Attempt.write fun s => s.recordPrePostFailure env.token env.stageNow
    return ⟨.failure, .generateFailed, none, none, .refused generated.reason .generate,
      generated.reason.map sanitizeError, true⟩

/-- `_record_remote_outcome`. -/
def recordRemoteOutcome (remote : RemoteSyncReport) (bodyHash : String) (emitted : Nat)
    (targetRevision : Int) : Attempt AttemptResult := do
  env.reach .record
  if remote.postAccepted then
    Attempt.write fun s => s.recordAcceptedPost targetRevision bodyHash env.token env.stageNow
    let diagnosis := classifyDiagnosis remote bodyHash
    env.reach .diagnosis
    Attempt.write fun s => s.recordDiagnosis diagnosis.1 env.token diagnosis.2 env.stageNow
    let ok := remote.ok && (diagnosis.1 = .healthy || diagnosis.1 = .accepted)
    return ⟨if ok then .success else .failure, .sync remote.outcome, some bodyHash, some emitted,
      .remote remote, if ok then none else remote.reason.map sanitizeError,
      !ok && remote.outcome ∈ failureOutcomes⟩
  else
    Attempt.write fun s => s.recordPrePostFailure env.token env.stageNow
    return ⟨.failure, .sync remote.outcome, some bodyHash, some emitted, .remote remote,
      remote.reason.map sanitizeError, remote.outcome ∈ failureOutcomes⟩

/-- A generate that has everything the next stages need. -/
def GenerateResult.complete (g : GenerateResult) : Option (ProjectionReport × PublishResult) :=
  match g.ok, g.report, g.publish with
  | true, some report, some publish => some (report, publish)
  | _, _, _ => none

/-- From the checkpoint of the published hash to the end: no-op, or POST. -/
def publishAndSync (report : ProjectionReport) (publish : PublishResult) (forceRemote : Bool)
    (target : Int) : Attempt AttemptResult := do
  env.reach .publishedHash
  Attempt.write fun s => s.recordPublishedHash publish.bodyHash env.token
  env.reach .readSyncState
  let snap ← get
  if !forceRemote && shouldSkipRemotePost (some publish.bodyHash) snap then
    env.reach .record
    Attempt.write fun s => s.recordHashNoop target env.token env.stageNow
    return ⟨.success, .skippedUnchanged, some publish.bodyHash, some report.emittedCount,
      .reason "generated content matches remote; reload skipped", none, false⟩
  else
    env.reach .remote
    let remote ← Attempt.ofExcept (env.syncRemote report)
    recordRemoteOutcome env remote publish.bodyHash report.emittedCount target

/-- `_run_attempt_stages`: preflight, capture, generate, checkpoint, no-op or POST. -/
def runAttemptStages (forceRemote : Bool) (guardTargetRevision : Int) : Attempt AttemptResult := do
  env.reach .client
  env.reach .preflight
  let pre ← Attempt.ofExcept env.preflight
  if !pre.ok then
    recordPreflightOutcome env pre guardTargetRevision
  else
    env.reach .captureTarget
    let target := (← get).captureTarget
    env.reach .generate
    let generated ← Attempt.ofExcept env.generate
    match generated.complete with
    | some (report, publish) => publishAndSync env report publish forceRemote target
    | none => recordGenerateOutcome env generated guardTargetRevision

/-- How `_attempt` turns an exit into a result; a cancellation has none. -/
def resultOfExit : Exit → Option AttemptResult
  | .interrupt .timeout => some ⟨.failure, .error, none, none, .reason "attempt_timeout",
      some (sanitizeError "attempt timed out"), true⟩
  | .interrupt .cancelled => none
  | .interrupt (.raised exc) => some ⟨.failure, .error, none, none, .exception exc.type,
      some (sanitizeError (exc.type ++ ": " ++ exc.message)), true⟩
  | .leaseStale _ => some ⟨.skipped, .staleLease, none, none, .reason "stale_lease", none, false⟩

/-- The body of the `try` in `_attempt`: the prior run, the stages, and the close
of the client. -/
def leasedAttempt (snapshot : SyncState) (forceRemote : Bool) : Attempt AttemptResult := do
  env.reach .lastRun
  let result ← runAttemptStages env forceRemote snapshot.desiredRevision
  env.reach .close
  return result

omit [UnicodeTables] in
/-- The `finally` of `_attempt`: release what is still ours. -/
def Env.released (s : SyncState) : SyncState := (env.settled .release s).releaseLease env.token

/-- `_attempt` on the row `s`: `none` when the lease was not to be had, else the
result and the row the attempt leaves. -/
def attempt (snapshot : SyncState) (forceRemote : Bool) (s : SyncState) :
    Option (Option AttemptResult × SyncState) :=
  (s.claimLease env.owner env.token env.leaseTtl env.claimNow).map fun claimed =>
    match (leasedAttempt env snapshot forceRemote).run claimed with
    | .ok result t => (some result, env.released t)
    | .error exit t => (resultOfExit exit, env.released t)

omit [UnicodeTables] in
/-- Enough time since the last remote attempt. -/
def remoteFloorSatisfied (snapshot : SyncState) (now : Int) (minIntervalMinutes : Int) : Bool :=
  snapshot.lastRemoteAttemptAt.all fun last => minutes (max 1 minIntervalMinutes) ≤ now - last

omit [UnicodeTables] in
/-- The gate of `_tick` on the row it reads: `some forceRemote` when an attempt
is to be made. -/
def tickGate (s : SyncState) : Option Bool :=
  if !env.canProject || !env.autoSyncEnabled then none
  else
    let eligibility := reconcileEligibility s env.tickNow
    if !eligibility.due then none
    else if (eligibility.reason = .dirty || eligibility.reason = .maxLatency) && !s.forceReload &&
        !remoteFloorSatisfied s env.tickNow env.minIntervalMinutes then none
    else some (s.forceReload || eligibility.reason = .periodicReload)

/-- What the stages meet outside: the remote, the projection of the database, the
file system and the digest. -/
structure Services where
  client : PaisaClient
  project : Except ProjectException ProjectionReport
  fs : FileSystem
  sha256 : String → String

/-- The environment whose stages are the orchestrator's own. -/
def Env.withServices (config : ProjectionConfig) (services : Services) : Env :=
  { env with
    canProject := config.canProject
    preflight := FinancialDashboard.Paisa.preflight config services.client
    generate := (FinancialDashboard.Paisa.generate config services.project services.fs
      services.sha256).map Prod.fst
    syncRemote := fun report => FinancialDashboard.Paisa.syncRemote report services.client }

/-- `_tick`: read the row, gate, and attempt on the row as it is by then. -/
def tick (s : SyncState) : Option (Option AttemptResult × SyncState) :=
  (tickGate env s).bind fun forceRemote => attempt env s forceRemote (env.settled .claim s)

end

end FinancialDashboard.Paisa
