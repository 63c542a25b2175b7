import FinancialDashboard.Lib.PyTime
import Mathlib.Data.Option.Basic
import Mathlib.Tactic.SplitIfs

/-!
# The sync-state row

`services/paisa/sync_state.py` owns one row of `extension_sync_state`: how far
the generated Paisa journal is behind the core tables, the retry backoff, and
the lease that keeps two runs apart.  `db/init_db.py` installs the triggers that
move `desired_revision`.  This file is that row and every statement that reads
or writes it.

A function of the source that ends in one `UPDATE ... RETURNING` is a function
on rows here.  The completion primitives carry `WHERE lease_token = :token`;
`guarded` is that clause, and an update that matches no row is the
`LeaseStaleError` the source raises.

* `reconcileEligibility`: whether the row is due, and why.
* `claimLease`, `heartbeatLease`, `releaseLease`: the lease.
* `applyCaughtUp`: the shared completion of an accepted POST, of a hash no-op
  and of a guard, with `catchUp` for its `CASE` expressions.
* `recordDiagnosis`, `recordPrePostFailure`: the two ways the backoff is armed.
* `bumpCore`, `bumpSettings`: the two trigger bodies.

An instant is a number of microseconds since the epoch in UTC.  `extension_id`
is always `'paisa'`, and nothing here reads `created_at` or `updated_at`.
-/

namespace FinancialDashboard.Paisa

open PyTime

inductive DiagnosisState
  | healthy | accepted | fatal | unknown
  deriving DecidableEq, Repr

/-- One row of `extension_sync_state`. -/
structure SyncState where
  desiredRevision : Int
  appliedRevision : Int
  firstDirtyAt : Option Int
  lastDirtyAt : Option Int
  lastPublishedHash : Option String
  lastRemoteHash : Option String
  lastHealthyHash : Option String
  lastRemoteAttemptAt : Option Int
  nextAttemptAt : Option Int
  failureCount : Nat
  diagnosisState : Option DiagnosisState
  forceReload : Bool
  leaseOwner : Option String
  leaseToken : Option String
  leaseExpiresAt : Option Int
  deriving DecidableEq, Repr

/-- A token-guarded update met a row another token holds. -/
structure LeaseStaleError where
  token : String
  deriving DecidableEq, Repr

/-! ### Fixed timings -/

def backoffMinutes : List Nat := [1, 2, 5, 10, 15]

def defaultQuietDebounce : Int := seconds 5
def defaultMaxDirtyLatency : Int := seconds 30
def defaultForceReloadInterval : Int := hours 6
def defaultLeaseTtl : Int := seconds 90

/-- The retry delay for a 1-based count of consecutive failures, clamped to the
last step of the table. -/
def backoffDelta (failureCount : Nat) (table : List Nat) : Int :=
  if table.length = 0 then 0
  else minutes (table.getD (min (failureCount - 1) (table.length - 1)) 0)

/-! ### Eligibility -/

inductive EligibilityReason
  | backoff | forceReload | periodicReload | caughtUp | maxLatency | debounce | dirty
  deriving DecidableEq, Repr

structure ReconcileEligibility where
  due : Bool
  reason : EligibilityReason
  eligibleAt : Option Int
  deriving DecidableEq, Repr

/-- Whether a coordinator should reconcile now: backoff gate, one-shot force,
periodic reload, then dirtiness with its debounce. -/
def reconcileEligibility (snapshot : SyncState) (now : Int) : ReconcileEligibility :=
  if snapshot.nextAttemptAt.any (now < ·) then ⟨false, .backoff, snapshot.nextAttemptAt⟩
  else if snapshot.forceReload then ⟨true, .forceReload, some now⟩
  else if snapshot.lastRemoteAttemptAt.any (defaultForceReloadInterval ≤ now - ·) then
    ⟨true, .periodicReload, some now⟩
  else if snapshot.desiredRevision ≤ snapshot.appliedRevision then ⟨false, .caughtUp, none⟩
  else if snapshot.firstDirtyAt.any (defaultMaxDirtyLatency ≤ now - ·) then
    ⟨true, .maxLatency, some now⟩
  else if snapshot.lastDirtyAt.any (now - · < defaultQuietDebounce) then
    ⟨false, .debounce, snapshot.lastDirtyAt.map (· + defaultQuietDebounce)⟩
  else ⟨true, .dirty, some now⟩

/-- The remote already holds the bytes just published. -/
def shouldSkipRemotePost (publishedHash : Option String) (snapshot : SyncState) : Bool :=
  match publishedHash, snapshot.lastRemoteHash with
  | some published, some remote => remote = published
  | _, _ => false

namespace SyncState

/-! ### The triggers -/

/-- `CURRENT_TIMESTAMP` of SQLite has whole seconds. -/
def currentTimestamp (now : Int) : Int := now - now % seconds 1

/-- The trigger on a core table. -/
def bumpCore (s : SyncState) (now : Int) : SyncState :=
  { s with
    desiredRevision := s.desiredRevision + 1
    firstDirtyAt := some (s.firstDirtyAt.getD (currentTimestamp now))
    lastDirtyAt := some (currentTimestamp now) }

/-- The trigger on a `paisa.%` setting, which also resets the retry backoff. -/
def bumpSettings (s : SyncState) (now : Int) : SyncState :=
  { s.bumpCore now with failureCount := 0, nextAttemptAt := none, lastRemoteAttemptAt := none }

/-! ### The lease -/

/-- `UPDATE ... WHERE lease_expires_at IS NULL OR lease_expires_at < :now`;
`none` when a live lease blocks. -/
def claimLease (s : SyncState) (owner token : String) (ttl : Int) (now : Int) :
    Option SyncState :=
  if s.leaseExpiresAt.all (· < now) then
    some { s with
      leaseOwner := some owner, leaseToken := some token, leaseExpiresAt := some (now + ttl) }
  else none

/-- `WHERE lease_token = :token`: run the update, or match no row. -/
def guarded (s : SyncState) (token : String) (update : SyncState → SyncState) :
    Except LeaseStaleError SyncState :=
  if s.leaseToken = some token then .ok (update s) else .error ⟨token⟩

/-- A stale token renews nothing. -/
def heartbeatLease (s : SyncState) (token : String) (ttl : Int) (now : Int) : SyncState :=
  if s.leaseToken = some token then { s with leaseExpiresAt := some (now + ttl) } else s

/-- A stale token releases nothing. -/
def releaseLease (s : SyncState) (token : String) : SyncState :=
  if s.leaseToken = some token then
    { s with leaseOwner := none, leaseToken := none, leaseExpiresAt := none }
  else s

/-- The revision `R` a reconcile targets. -/
def captureTarget (s : SyncState) : Int := s.desiredRevision

/-! ### Completions -/

def recordPublishedHash (s : SyncState) (bodyHash token : String) :
    Except LeaseStaleError SyncState :=
  s.guarded token fun s => { s with lastPublishedHash := some bodyHash }

/-- The `CASE` expressions of `_apply_caught_up`: `applied` goes to the target,
clamped to the `desired` of the row as it is now, and the dirty window and the
force flag are cleared only when that catches up. -/
def catchUp (target : Int) (s : SyncState) : SyncState :=
  { s with
    appliedRevision := if target < s.desiredRevision then target else s.desiredRevision
    forceReload := if s.desiredRevision ≤ target then false else s.forceReload
    firstDirtyAt := if s.desiredRevision ≤ target then none else s.firstDirtyAt
    lastDirtyAt := if s.desiredRevision ≤ target then none else s.lastDirtyAt }

/-- What an accepted POST writes besides `catchUp`. -/
def stampRemote (remoteHash : String) (now : Int) (s : SyncState) : SyncState :=
  { s with
    lastRemoteHash := some remoteHash
    lastRemoteAttemptAt := some now
    failureCount := 0
    nextAttemptAt := none }

/-- The shared completion; `remoteHash` is set for an accepted POST only. -/
def applyCaughtUp (s : SyncState) (target : Int) (token : String) (now : Int)
    (remoteHash : Option String) : Except LeaseStaleError SyncState :=
  s.guarded token fun s =>
    match remoteHash with
    | some hash => catchUp target (stampRemote hash now s)
    | none => catchUp target s

def recordHashNoop (s : SyncState) (target : Int) (token : String) (now : Int) :=
  s.applyCaughtUp target token now none

def recordGuardCaughtUp (s : SyncState) (target : Int) (token : String) (now : Int) :=
  s.applyCaughtUp target token now none

def recordAcceptedPost (s : SyncState) (target : Int) (remoteHash token : String) (now : Int) :=
  s.applyCaughtUp target token now (some remoteHash)

/-- Count one more failure and raise `next_attempt_at` by the delay for it. -/
def armBackoff (now : Int) (s : SyncState) : SyncState :=
  { s with
    failureCount := s.failureCount + 1
    nextAttemptAt := some (now + backoffDelta (s.failureCount + 1) backoffMinutes) }

/-- The update of `record_diagnosis`, by diagnosis. -/
def diagnosed (state : DiagnosisState) (healthyHash : Option String) (now : Int)
    (s : SyncState) : SyncState :=
  match state with
  | .fatal => { armBackoff now s with diagnosisState := some .fatal }
  | .healthy | .accepted =>
    { s with
      diagnosisState := some state
      lastHealthyHash := healthyHash <|> s.lastHealthyHash
      failureCount := 0
      nextAttemptAt := none }
  | .unknown => { s with diagnosisState := some .unknown }

def recordDiagnosis (s : SyncState) (state : DiagnosisState) (token : String)
    (healthyHash : Option String) (now : Int) : Except LeaseStaleError SyncState :=
  s.guarded token (diagnosed state healthyHash now)

def recordPrePostFailure (s : SyncState) (token : String) (now : Int) :
    Except LeaseStaleError SyncState :=
  s.guarded token fun s => { armBackoff now s with lastRemoteAttemptAt := some now }

/-! ### Operator primitives -/

def setForceReload (s : SyncState) (enabled : Bool) : SyncState := { s with forceReload := enabled }

/-- Back to the dirty seed, with no lease. -/
def resetSyncState (_ : SyncState) (now : Int) : SyncState where
  desiredRevision := 1
  appliedRevision := 0
  firstDirtyAt := some now
  lastDirtyAt := some now
  lastPublishedHash := none
  lastRemoteHash := none
  lastHealthyHash := none
  lastRemoteAttemptAt := none
  nextAttemptAt := none
  failureCount := 0
  diagnosisState := none
  forceReload := true
  leaseOwner := none
  leaseToken := none
  leaseExpiresAt := none

/-- The row `init_db` inserts on the first boot. -/
def seed (now : Int) : SyncState where
  desiredRevision := 1
  appliedRevision := 0
  firstDirtyAt := some (currentTimestamp now)
  lastDirtyAt := some (currentTimestamp now)
  lastPublishedHash := none
  lastRemoteHash := none
  lastHealthyHash := none
  lastRemoteAttemptAt := none
  nextAttemptAt := none
  failureCount := 0
  diagnosisState := none
  forceReload := true
  leaseOwner := none
  leaseToken := none
  leaseExpiresAt := none

/-! ### What each statement leaves alone -/

theorem guarded_ok_iff {s s' : SyncState} {token : String} {update : SyncState → SyncState} :
    s.guarded token update = .ok s' ↔ s.leaseToken = some token ∧ s' = update s := by
  unfold guarded
  split_ifs with h
  · simp [h, eq_comm]
  · simp [h]

/-- **A stale token writes nothing.** -/
theorem guarded_of_ne {s : SyncState} {token : String} {update : SyncState → SyncState}
    (h : s.leaseToken ≠ some token) : s.guarded token update = .error ⟨token⟩ := if_neg h

theorem guarded_of_eq {s : SyncState} {token : String} {update : SyncState → SyncState}
    (h : s.leaseToken = some token) : s.guarded token update = .ok (update s) := if_pos h

/-- Two guarded updates in one transaction are one. -/
theorem guarded_bind_guarded {s : SyncState} {token : String} {u v : SyncState → SyncState}
    (hu : ∀ s : SyncState, (u s).leaseToken = s.leaseToken) :
    (s.guarded token u >>= fun t => t.guarded token v) = s.guarded token fun s => v (u s) := by
  by_cases h : s.leaseToken = some token
  · rw [guarded_of_eq h, guarded_of_eq h]
    exact guarded_of_eq ((hu s).trans h)
  · rw [guarded_of_ne h, guarded_of_ne h]
    rfl

/-- A guard and a hash no-op complete alike: they only catch up. -/
theorem recordGuardCaughtUp_eq (s : SyncState) (target : Int) (token : String) (now : Int) :
    s.recordGuardCaughtUp target token now = s.guarded token (catchUp target) := rfl

theorem recordHashNoop_eq (s : SyncState) (target : Int) (token : String) (now : Int) :
    s.recordHashNoop target token now = s.guarded token (catchUp target) := rfl

theorem recordAcceptedPost_eq (s : SyncState) (target : Int) (hash token : String) (now : Int) :
    s.recordAcceptedPost target hash token now =
      s.guarded token fun s => catchUp target (stampRemote hash now s) := rfl

theorem claimLease_eq_some_iff {s s' : SyncState} {owner token : String} {ttl : Int}
    {now : Int} :
    s.claimLease owner token ttl now = some s' ↔ s.leaseExpiresAt.all (· < now) ∧
      s' = { s with leaseOwner := some owner, leaseToken := some token,
                    leaseExpiresAt := some (now + ttl) } := by
  unfold claimLease
  split_ifs with h
  · simp [h, eq_comm]
  · simp [h]

theorem heartbeatLease_of_ne {s : SyncState} {token : String} {ttl : Int} {now : Int}
    (h : s.leaseToken ≠ some token) : s.heartbeatLease token ttl now = s := if_neg h

theorem releaseLease_of_ne {s : SyncState} {token : String} (h : s.leaseToken ≠ some token) :
    s.releaseLease token = s := if_neg h

theorem catchUp_appliedRevision (target : Int) (s : SyncState) :
    (catchUp target s).appliedRevision = min target s.desiredRevision := by
  simp only [catchUp]
  split_ifs <;> omega

@[simp] theorem catchUp_desiredRevision (target : Int) (s : SyncState) :
    (catchUp target s).desiredRevision = s.desiredRevision := rfl

@[simp] theorem catchUp_leaseToken (target : Int) (s : SyncState) :
    (catchUp target s).leaseToken = s.leaseToken := rfl

@[simp] theorem catchUp_nextAttemptAt (target : Int) (s : SyncState) :
    (catchUp target s).nextAttemptAt = s.nextAttemptAt := rfl

@[simp] theorem catchUp_lastRemoteHash (target : Int) (s : SyncState) :
    (catchUp target s).lastRemoteHash = s.lastRemoteHash := rfl

@[simp] theorem catchUp_lastRemoteAttemptAt (target : Int) (s : SyncState) :
    (catchUp target s).lastRemoteAttemptAt = s.lastRemoteAttemptAt := rfl

end SyncState

end FinancialDashboard.Paisa
