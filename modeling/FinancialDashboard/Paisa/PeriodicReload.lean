import FinancialDashboard.Lib.Transition
import FinancialDashboard.Paisa.SyncState
import Mathlib.Data.Int.Order.Basic

/-!
# The periodic reload

`reconcile_eligibility` reports a caught-up row due again six hours after its
`last_remote_attempt_at`.  A settings change sets that stamp to NULL, and only a
remote attempt sets it again: a guard or a hash no-op completes the row without
one, and the timer is gone until the next change.

A NULL stamp does no harm while the row is dirty, since a dirty row is due anyway,
once its debounce is over.  So there are two things a step must not do: complete
the row while the stamp is NULL, and open a debounce that outlasts the six hours.
`KeepsTimer` says so.

* `armed_of_step`: one step keeps the timer armed.
* `periodic_reload_due`: so the row is due after the interval, in every run.
* `noop_disarms`: a settings change and a hash no-op leave it not due for good.
-/

namespace FinancialDashboard.Paisa

open PyTime SyncState

/-- The row, the clock of the database, and the last remote attempt there was. -/
structure Timer where
  row : SyncState
  clock : Int
  lastAttempt : Int

/-- The statements that read or write the row, each with its arguments.  A
completion is stamped with the start of its attempt, so its `now` is its own. -/
inductive TimerEvent
  | core (now : Int)
  | settings (now : Int)
  | claim (owner token : String) (ttl now : Int)
  | heartbeat (token : String) (ttl now : Int)
  | release (token : String)
  | guard (target : Int) (token : String) (now : Int)
  | noop (target : Int) (token : String) (now : Int)
  | accept (target : Int) (hash token : String) (now : Int)
  | diagnose (state : DiagnosisState) (token : String) (healthyHash : Option String) (now : Int)
  | fail (token : String) (now : Int)
  deriving DecidableEq, Repr

namespace Timer

/-- A guarded update that goes through. -/
def written (t : Timer) (result : Except LeaseStaleError SyncState) : Option Timer :=
  result.toOption.map fun row => { t with row }

def step (t : Timer) : TimerEvent → Option Timer
  | .core now =>
    if t.clock ≤ now then some { t with row := t.row.bumpCore now, clock := now } else none
  | .settings now =>
    if t.clock ≤ now then some { t with row := t.row.bumpSettings now, clock := now } else none
  | .claim owner token ttl now =>
    (t.row.claimLease owner token ttl now).map fun row => { t with row }
  | .heartbeat token ttl now => some { t with row := t.row.heartbeatLease token ttl now }
  | .release token => some { t with row := t.row.releaseLease token }
  | .guard target token now => t.written (t.row.recordGuardCaughtUp target token now)
  | .noop target token now => t.written (t.row.recordHashNoop target token now)
  | .accept target hash token now =>
    (t.written (t.row.recordAcceptedPost target hash token now)).map
      fun t => { t with lastAttempt := now }
  | .diagnose state token healthyHash now =>
    t.written (t.row.recordDiagnosis state token healthyHash now)
  | .fail token now =>
    (t.written (t.row.recordPrePostFailure token now)).map fun t => { t with lastAttempt := now }

end Timer

def timer : Transition.System Timer TimerEvent where
  step := Timer.step

namespace Timer

variable {t t' : Timer} {e : TimerEvent}

/-- When the debounce a commit opens is over. -/
def debounceEnd (row : SyncState) (now : Int) : Int :=
  min (currentTimestamp now + defaultQuietDebounce)
    (row.firstDirtyAt.getD (currentTimestamp now) + defaultMaxDirtyLatency)

/-- The first instant at which the reload is overdue. -/
def overdue (t : Timer) : Int := t.lastAttempt + defaultForceReloadInterval + 1

/-- A commit that leaves the stamp NULL has its debounce over by the time the
reload is overdue. -/
def InTime (t : Timer) (now : Int) : Prop :=
  t.row.forceReload = true ∨ debounceEnd t.row now ≤ max now t.overdue

/-- A completion without an attempt finds the stamp set, or leaves the row dirty. -/
def StampSet (t : Timer) (target : Int) (token : String) : Prop :=
  t.row.leaseToken = some token → t.row.lastRemoteAttemptAt = none →
    target < t.row.desiredRevision

def KeepsTimer (t : Timer) : TimerEvent → Prop
  | .core now => t.row.lastRemoteAttemptAt = none → t.InTime now
  | .settings now => t.InTime now
  | .guard target token _ | .noop target token _ => t.StampSet target token
  | _ => True

instance (t : Timer) (now : Int) : Decidable (t.InTime now) :=
  inferInstanceAs (Decidable (_ ∨ _))

instance (t : Timer) (target : Int) (token : String) : Decidable (t.StampSet target token) :=
  inferInstanceAs (Decidable (_ → _ → _))

instance (t : Timer) (e : TimerEvent) : Decidable (t.KeepsTimer e) := by
  cases e with
  | core now => exact inferInstanceAs (Decidable (_ → t.InTime now))
  | settings now => exact inferInstanceAs (Decidable (t.InTime now))
  | guard target token | noop target token =>
    exact inferInstanceAs (Decidable (t.StampSet target token))
  | _ => exact .isTrue trivial

/-! ### The invariant -/

/-- A dirty row is out of its debounce whenever the reload is overdue. -/
def WindowOver (t : Timer) : Prop :=
  ∀ now, t.clock ≤ now → t.overdue ≤ now →
    t.row.firstDirtyAt.any (defaultMaxDirtyLatency ≤ now - ·) = true ∨
      t.row.lastDirtyAt.any (now - · < defaultQuietDebounce) = false

structure Armed (t : Timer) : Prop where
  le : t.row.appliedRevision ≤ t.row.desiredRevision
  stamp : ∀ a, t.row.lastRemoteAttemptAt = some a → a = t.lastAttempt
  dirty : t.row.lastRemoteAttemptAt = none →
    t.row.forceReload = true ∨ t.row.appliedRevision < t.row.desiredRevision ∧ t.WindowOver

/-- The lease and the diagnosis are nothing to the timer. -/
theorem armed_of_same {row : SyncState} (h : t.Armed)
    (happlied : row.appliedRevision = t.row.appliedRevision)
    (hdesired : row.desiredRevision = t.row.desiredRevision)
    (hstamp : row.lastRemoteAttemptAt = t.row.lastRemoteAttemptAt)
    (hforce : row.forceReload = t.row.forceReload)
    (hfirst : row.firstDirtyAt = t.row.firstDirtyAt)
    (hlast : row.lastDirtyAt = t.row.lastDirtyAt) : Armed { t with row } := by
  refine ⟨?_, ?_, ?_⟩
  · change row.appliedRevision ≤ row.desiredRevision
    rw [happlied, hdesired]
    exact h.le
  · intro a ha
    exact h.stamp a (hstamp ▸ ha)
  · intro hnone
    have hdirty := h.dirty (hstamp ▸ hnone)
    change row.forceReload = true ∨ row.appliedRevision < row.desiredRevision ∧
      WindowOver { t with row }
    unfold WindowOver at hdirty ⊢
    dsimp only [overdue] at hdirty ⊢
    rw [happlied, hdesired, hforce, hfirst, hlast]
    exact hdirty

/-- The debounce a commit opens is over in time. -/
theorem windowOver_of_inTime {row : SyncState} {now : Int}
    (h : debounceEnd t.row now ≤ max now t.overdue)
    (hfirst : row.firstDirtyAt = some (t.row.firstDirtyAt.getD (currentTimestamp now)))
    (hlast : row.lastDirtyAt = some (currentTimestamp now)) :
    WindowOver { t with row, clock := now } := by
  intro later hclock hoverdue
  have hlater : max now t.overdue ≤ later := Int.max_le.mpr ⟨hclock, hoverdue⟩
  have hend : debounceEnd t.row now ≤ later := Int.le_trans h hlater
  unfold debounceEnd at hend
  change row.firstDirtyAt.any _ = true ∨ row.lastDirtyAt.any _ = false
  rw [hfirst, hlast]
  simp only [Option.any_some, decide_eq_true_eq, decide_eq_false_iff_not]
  omega

/-- A commit with the stamp NULL after it. -/
theorem armed_of_commit {row : SyncState} {now : Int} (h : t.Armed)
    (happlied : row.appliedRevision = t.row.appliedRevision)
    (hdesired : row.desiredRevision = t.row.desiredRevision + 1)
    (hforce : row.forceReload = t.row.forceReload)
    (hfirst : row.firstDirtyAt = some (t.row.firstDirtyAt.getD (currentTimestamp now)))
    (hlast : row.lastDirtyAt = some (currentTimestamp now))
    (hstamp : ∀ a, row.lastRemoteAttemptAt = some a → t.row.lastRemoteAttemptAt = some a)
    (hin : row.lastRemoteAttemptAt = none → t.InTime now) :
    Armed { t with row, clock := now } := by
  have hle := h.le
  refine ⟨?_, fun a ha => h.stamp a (hstamp a ha), fun hnone => ?_⟩
  · change row.appliedRevision ≤ row.desiredRevision
    omega
  · rcases hin hnone with hforced | hover
    · exact .inl (hforce.trans hforced)
    · refine .inr ⟨?_, windowOver_of_inTime hover hfirst hlast⟩
      change row.appliedRevision < row.desiredRevision
      omega

/-- A completion without an attempt. -/
theorem armed_of_catchUp {target : Int} (h : t.Armed)
    (hset : t.row.lastRemoteAttemptAt = none → target < t.row.desiredRevision) :
    Armed { t with row := catchUp target t.row } := by
  have happlied := catchUp_appliedRevision target t.row
  refine ⟨?_, h.stamp, fun hnone => ?_⟩
  · change (catchUp target t.row).appliedRevision ≤ t.row.desiredRevision
    omega
  · have hbehind := hset hnone
    have hnot : ¬ t.row.desiredRevision ≤ target := by omega
    -- not caught up: the force flag and the dirty window are as they were
    rcases h.dirty hnone with hforced | ⟨_, hover⟩
    · left
      simp only [catchUp, if_neg hnot]
      exact hforced
    · right
      refine ⟨?_, ?_⟩
      · change (catchUp target t.row).appliedRevision < t.row.desiredRevision
        omega
      · unfold WindowOver at hover ⊢
        simp only [catchUp, if_neg hnot]
        exact hover

/-- A remote attempt sets the stamp. -/
theorem armed_of_attempt {row : SyncState} {now : Int}
    (hle : row.appliedRevision ≤ row.desiredRevision)
    (hstamp : row.lastRemoteAttemptAt = some now) :
    Armed { t with row, lastAttempt := now } where
  le := hle
  stamp a ha := by
    rw [hstamp] at ha
    exact (Option.some.inj ha).symm
  dirty hnone := by
    rw [hstamp] at hnone
    cases hnone

/-! ### One step -/

theorem written_eq_some {token : String} {update : SyncState → SyncState}
    (h : t.written (t.row.guarded token update) = some t') :
    t.row.leaseToken = some token ∧ t' = { t with row := update t.row } := by
  unfold written at h
  obtain ⟨row, hrow, rfl⟩ := Option.map_eq_some_iff.mp h
  by_cases hheld : t.row.leaseToken = some token
  · rw [guarded_of_eq hheld] at hrow
    cases hrow
    exact ⟨hheld, rfl⟩
  · rw [guarded_of_ne hheld] at hrow
    cases hrow

/-- **One step keeps the timer armed.** -/
theorem armed_of_step (h : t.Armed) (hok : t.KeepsTimer e) (hstep : timer.step t e = some t') :
    t'.Armed := by
  cases e with
  | core now =>
    simp only [timer, step] at hstep
    split_ifs at hstep
    cases hstep
    exact armed_of_commit h rfl rfl rfl rfl rfl (fun _ ha => ha) hok
  | settings now =>
    simp only [timer, step] at hstep
    split_ifs at hstep
    cases hstep
    exact armed_of_commit h rfl rfl rfl rfl rfl (fun _ ha => by cases ha) fun _ => hok
  | claim owner token ttl now =>
    obtain ⟨row, hrow, rfl⟩ := Option.map_eq_some_iff.mp hstep
    obtain ⟨_, rfl⟩ := claimLease_eq_some_iff.mp hrow
    exact armed_of_same h rfl rfl rfl rfl rfl rfl
  | heartbeat token ttl now =>
    cases hstep
    unfold heartbeatLease
    split_ifs <;> exact armed_of_same h rfl rfl rfl rfl rfl rfl
  | release token =>
    cases hstep
    unfold releaseLease
    split_ifs <;> exact armed_of_same h rfl rfl rfl rfl rfl rfl
  | guard target token now =>
    simp only [timer, step, recordGuardCaughtUp_eq] at hstep
    obtain ⟨hheld, rfl⟩ := written_eq_some hstep
    exact armed_of_catchUp h (hok hheld)
  | noop target token now =>
    simp only [timer, step, recordHashNoop_eq] at hstep
    obtain ⟨hheld, rfl⟩ := written_eq_some hstep
    exact armed_of_catchUp h (hok hheld)
  | accept target hash token now =>
    simp only [timer, step, recordAcceptedPost_eq] at hstep
    obtain ⟨u, hu, rfl⟩ := Option.map_eq_some_iff.mp hstep
    obtain ⟨_, rfl⟩ := written_eq_some hu
    refine armed_of_attempt ?_ rfl
    have happlied := catchUp_appliedRevision target (stampRemote hash now t.row)
    change (catchUp target (stampRemote hash now t.row)).appliedRevision ≤
      (stampRemote hash now t.row).desiredRevision
    omega
  | diagnose state token healthyHash now =>
    obtain ⟨_, rfl⟩ := written_eq_some hstep
    cases state <;> exact armed_of_same h rfl rfl rfl rfl rfl rfl
  | fail token now =>
    obtain ⟨u, hu, rfl⟩ := Option.map_eq_some_iff.mp hstep
    obtain ⟨_, rfl⟩ := written_eq_some hu
    exact armed_of_attempt h.le rfl

/-! ### Runs -/

/-- An armed row is due once the interval is over. -/
theorem due_of_armed (h : t.Armed) {now : Int} (hclock : t.clock ≤ now)
    (hover : defaultForceReloadInterval < now - t.lastAttempt)
    (hbackoff : t.row.nextAttemptAt.any (now < ·) = false) :
    (reconcileEligibility t.row now).due = true := by
  unfold reconcileEligibility
  rw [if_neg (by simp [hbackoff])]
  by_cases hforce : t.row.forceReload = true
  · rw [if_pos hforce]
  rw [if_neg hforce]
  cases hstamp : t.row.lastRemoteAttemptAt with
  | some a =>
    obtain rfl := h.stamp a hstamp
    have hperiodic : defaultForceReloadInterval ≤ now - t.lastAttempt := Int.le_of_lt hover
    rw [if_pos (by simpa using hperiodic)]
  | none =>
    obtain hforced | ⟨hdirty, hwindow⟩ := h.dirty hstamp
    · exact absurd hforced hforce
    rw [if_neg (by simp), if_neg (by omega)]
    have hoverdue : t.overdue ≤ now := by
      unfold overdue
      omega
    rcases hwindow now hclock hoverdue with hlatency | hquiet
    · rw [if_pos hlatency]
    · split_ifs with h1 h2
      · rfl
      · rw [hquiet] at h2
        cases h2
      · rfl

/-- **The periodic reload stays armed**: from a recorded remote attempt on, by any
sequence of steps that keep the timer, the row is due once the interval since the
last attempt is over and no backoff is pending. -/
theorem periodic_reload_due {now : Int}
    (hstamp : t.row.lastRemoteAttemptAt = some t.lastAttempt)
    (hle : t.row.appliedRevision ≤ t.row.desiredRevision)
    (hrun : timer.Run KeepsTimer t t') (hclock : t'.clock ≤ now)
    (hover : defaultForceReloadInterval < now - t'.lastAttempt)
    (hbackoff : t'.row.nextAttemptAt.any (now < ·) = false) :
    (reconcileEligibility t'.row now).due = true := by
  have hstart : t.Armed := by
    refine ⟨hle, ?_, ?_⟩
    · intro a ha
      rw [hstamp] at ha
      exact (Option.some.inj ha).symm
    · intro hnone
      rw [hstamp] at hnone
      cases hnone
  have harmed : t'.Armed :=
    hrun.invariant (fun s e u hs hok hst => armed_of_step hs hok hst) hstart
  exact due_of_armed harmed hclock hover hbackoff

/-! ### The completion that disarms it -/

/-- Caught up without a stamp, the row is not due at any time. -/
theorem not_due_of_catchUp {row : SyncState} {target : Int}
    (hstamp : row.lastRemoteAttemptAt = none) (hcatch : row.desiredRevision ≤ target) (now : Int) :
    (reconcileEligibility (catchUp target row) now).due = false := by
  have happlied := catchUp_appliedRevision target row
  have hforce : (catchUp target row).forceReload = false := if_pos hcatch
  have hclean : (catchUp target row).desiredRevision ≤ (catchUp target row).appliedRevision := by
    rw [catchUp_desiredRevision]
    omega
  unfold reconcileEligibility
  by_cases hbackoff : (catchUp target row).nextAttemptAt.any (now < ·) = true
  · rw [if_pos hbackoff]
  · rw [if_neg hbackoff, if_neg (by simp [hforce]), if_neg (by simp [hstamp]), if_pos hclean]

/-- A clean row whose last remote attempt was at time 0. -/
def synced : Timer where
  row := catchUp 1 (stampRemote "h" 0 (seed 0))
  clock := 0
  lastAttempt := 0

/-- The operator changes a setting the projection does not read, so the next run
is a hash no-op. -/
def unchangedSettings : List TimerEvent :=
  [.settings (minutes 1), .claim "coordinator" "a" defaultLeaseTtl (minutes 2),
    .noop 2 "a" (minutes 2), .release "a"]

/-- **A hash no-op after a settings change disarms the reload**: seven hours after
the last attempt, with no lease and no backoff, the row is not due. -/
theorem noop_disarms : ∃ t,
    timer.Run Transition.System.always synced t ∧ synced.row.lastRemoteAttemptAt = some 0 ∧
      defaultForceReloadInterval < hours 7 - t.lastAttempt ∧ t.clock ≤ hours 7 ∧
      t.row.leaseExpiresAt = none ∧ t.row.nextAttemptAt = none ∧
      (reconcileEligibility t.row (hours 7)).due = false := by
  have hmeets : timer.Meets Transition.System.always synced unchangedSettings :=
    Transition.System.meets_of_forall (p := fun _ => True) unchangedSettings _ fun _ _ => trivial
  refine ⟨_, Transition.System.run_of_exec hmeets rfl, rfl, ?_⟩
  decide

/-- The same setting changed while a guard holds the row: it stays dirty. -/
def guardedSettings : List TimerEvent :=
  [.claim "coordinator" "a" defaultLeaseTtl (minutes 1), .settings (minutes 2),
    .guard 1 "a" (minutes 1), .release "a"]

theorem due_after_guardedSettings : ∃ t, timer.exec synced guardedSettings = some t ∧
    (reconcileEligibility t.row (hours 7)).due = true := by
  have hmeets : timer.Meets KeepsTimer synced guardedSettings := by decide
  refine ⟨_, rfl, ?_⟩
  exact periodic_reload_due rfl (by decide) (Transition.System.run_of_exec hmeets rfl)
    (by decide) (by decide) (by decide)

end Timer

end FinancialDashboard.Paisa
