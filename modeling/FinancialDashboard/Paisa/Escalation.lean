import FinancialDashboard.Paisa.Throttle
import FinancialDashboard.Lib.Transition

/-!
# The backoff over a run of failures

`backoff_delta` turns a count of consecutive failures into a step of the table
1, 2, 5, 10, 15 minutes.  `Streak` keeps that count beside the row: the automatic
attempts that failed since the last one that succeeded, or since a settings
change, which resets the backoff so that a repair is tried at once.  `Escalates`
says that the row is backed off by the step that belongs to that count.

The row's own count is not that one.  `record_accepted_post` puts it back to
zero before `record_diagnosis` counts the fatal diagnosis of the same attempt.

* `fatal_arms_first_step`: so a fatal diagnosis always arms the first step.
* `escalates_attempt_iff`: it keeps up the escalation only where that is the step
  it owes.
* `escalates_of_run`: the backoff escalates in every run in which a fatal
  diagnosis is only ever the first failure of its streak.
-/

namespace FinancialDashboard.Paisa

open PyTime PyText Transition

/-! ### The step that belongs to a count -/

/-- The `min n length`-th step of the table. -/
def backoffStep (n : Nat) : Int :=
  minutes (backoffMinutes.getD (min n backoffMinutes.length - 1) 0)

theorem backoffDelta_succ (n : Nat) : backoffDelta (n + 1) backoffMinutes = backoffStep (n + 1) := by
  have h : min (n + 1 - 1) (backoffMinutes.length - 1) =
      min (n + 1) backoffMinutes.length - 1 := by
    simp only [backoffMinutes, List.length_cons, List.length_nil]
    omega
  have hne : backoffMinutes.length ≠ 0 := by decide
  simp only [backoffDelta, backoffStep, hne, if_false, h]

/-- Every later step is longer than the first. -/
theorem first_lt_backoffStep {n : Nat} (h : 1 < n) : backoffStep 1 < backoffStep n := by
  have small : ∀ k ≤ backoffMinutes.length, 1 < k → backoffStep 1 < backoffStep k := by decide
  rcases Nat.le_total n backoffMinutes.length with hn | hn
  · exact small n hn h
  · have hlast : backoffStep n = backoffStep backoffMinutes.length := by
      simp [backoffStep, Nat.min_eq_right hn]
    rw [hlast]
    exact small _ (Nat.le_refl _) (by decide)

/-! ### An undisturbed attempt -/

/-- No settings change commits while the attempt runs, and no peer takes the
lease. -/
def Env.Steady (env : Env) : Prop :=
  ∀ p, ∀ c ∈ env.commits p, match c with
    | .settings _ | .reclaimed _ _ _ => False
    | .core _ | .forceReload _ | .heartbeat _ => True

namespace SyncState

/-- Two rows with the same backoff and the same holder of the lease. -/
structure SameBackoff (s t : SyncState) : Prop where
  failureCount : t.failureCount = s.failureCount
  nextAttemptAt : t.nextAttemptAt = s.nextAttemptAt
  leaseToken : t.leaseToken = s.leaseToken

theorem SameBackoff.refl (s : SyncState) : SameBackoff s s := ⟨rfl, rfl, rfl⟩

theorem SameBackoff.trans {s t u : SyncState} (h : SameBackoff s t) (g : SameBackoff t u) :
    SameBackoff s u :=
  ⟨g.1.trans h.1, g.2.trans h.2, g.3.trans h.3⟩

theorem heartbeatLease_sameBackoff (s : SyncState) (token : String) (ttl now : Int) :
    SameBackoff s (s.heartbeatLease token ttl now) := by
  by_cases h : s.leaseToken = some token
  · simp only [heartbeatLease, h, if_true]
    exact ⟨rfl, rfl, h.symm⟩
  · rw [heartbeatLease_of_ne h]
    exact .refl s

theorem releaseLease_backoff (s : SyncState) (token : String) :
    (s.releaseLease token).failureCount = s.failureCount ∧
      (s.releaseLease token).nextAttemptAt = s.nextAttemptAt := by
  by_cases h : s.leaseToken = some token
  · simp [releaseLease, h]
  · rw [releaseLease_of_ne h]
    exact ⟨rfl, rfl⟩

end SyncState

variable {env : Env}

theorem Env.Steady.settled (h : env.Steady) (p : Point) (s : SyncState) :
    SyncState.SameBackoff s (env.settled p s) := by
  refine env.settled_induction p (.refl s) fun t c hc ht => ht.trans ?_
  have := h p c hc
  cases c with
  | core | forceReload => exact ⟨rfl, rfl, rfl⟩
  | heartbeat => exact t.heartbeatLease_sameBackoff _ _ _
  | settings | reclaimed => exact this.elim

/-- A fact that only depends on the backoff and the holder is kept by a steady
environment. -/
theorem Env.Steady.kept (h : env.Steady) (ps : List Point) {Q : SyncState → Prop}
    (hQ : ∀ s t, SyncState.SameBackoff s t → Q s → Q t) : Kept env ps Q :=
  ⟨fun p _ t => hQ _ _ (h.settled p t), fun _ _ => hQ _ _ ⟨rfl, rfl, rfl⟩⟩

theorem Env.Steady.released (h : env.Steady) (s : SyncState) :
    (env.released s).failureCount = s.failureCount ∧
      (env.released s).nextAttemptAt = s.nextAttemptAt := by
  have hset := h.settled .release s
  have hrel := (env.settled .release s).releaseLease_backoff env.token
  exact ⟨hrel.1.trans hset.1, hrel.2.trans hset.2⟩

section

variable [UnicodeTables] {forceRemote : Bool} {s t : SyncState} {result : Option AttemptResult}

/-- The answers take the attempt, uninterrupted, to an accepted POST with a
diagnosis that is not fatal. -/
structure Recovers (env : Env) (forceRemote : Bool) (s : SyncState) (pre : PreflightReport)
    (generated : GenerateResult) (report : ProjectionReport) (publish : PublishResult)
    (remote : RemoteSyncReport) : Prop where
  clear : env.Clear [.lastRun, .client, .preflight, .captureTarget, .generate, .publishedHash,
    .readSyncState, .remote, .record, .diagnosis]
  passed : env.preflight = .ok pre
  ok : pre.ok = true
  generate : env.generate = .ok generated
  published : generated.complete = some (report, publish)
  differs : forceRemote = true ∨ s.lastRemoteHash ≠ some publish.bodyHash
  answer : env.syncRemote report = .ok remote
  accepted : remote.postAccepted = true
  diagnosis : remote.diagnosisOk = some true
  settled : remote.ok = true

/-- What the stages of a steady attempt leave, when they neither raise nor lose
the lease. -/
theorem attempt_end {P : AttemptResult → SyncState → Prop} (steady : env.Steady)
    (lastRun : env.interrupt .lastRun = none) (close : env.interrupt .close = none)
    (h : attempt env s forceRemote (env.settled .claim s) = some (result, t))
    (stages : ∀ c, c.leaseToken = some env.token → c.failureCount = s.failureCount →
      c.lastRemoteHash = s.lastRemoteHash →
      LeavesOrStale env (fun t => t.leaseToken = some env.token) P
        ((runAttemptStages env forceRemote s.desiredRevision).run c)) :
    ∃ r u, result = some r ∧ P r u ∧ t.failureCount = u.failureCount ∧
      t.nextAttemptAt = u.nextAttemptAt := by
  obtain ⟨c, hclaim, hend⟩ := attempt_cases h
  have hclaimed := steady.settled .claim s
  have hhash := env.settled_lastRemoteHash .claim (s := s)
  obtain ⟨_, rfl⟩ := SyncState.claimLease_eq_some_iff.mp hclaim
  rcases hend with ⟨i, hi, _⟩ | ⟨_, hstages⟩
  · rw [lastRun] at hi
    cases hi
  · have hlast := steady.settled .lastRun { env.settled .claim s with
      leaseOwner := some env.owner, leaseToken := some env.token,
      leaseExpiresAt := some (env.claimNow + env.leaseTtl) }
    have hleaves := stages _ hlast.leaseToken (hlast.failureCount.trans hclaimed.failureCount)
      ((env.settled_lastRemoteHash .lastRun).trans hhash)
    rcases hstages with ⟨e, u, hx, _⟩ | ⟨r, u, hx, rfl, hresult⟩
    · rw [hx] at hleaves
      rcases hleaves with ⟨_, _, hok, _⟩ | ⟨_, _, herr, hheld, hlost⟩
      · cases hok
      · exact absurd hheld hlost
    · rw [hx] at hleaves
      rcases hleaves with ⟨_, _, hok, hP⟩ | ⟨_, _, herr, _⟩
      · cases hok
        rw [close] at hresult
        have hrel := steady.released (env.settled .close u)
        have hclose := steady.settled .close u
        exact ⟨r, u, hresult, hP, hrel.1.trans hclose.1, hrel.2.trans hclose.2⟩
      · cases herr

/-- **A steady attempt that comes to an arming exit** has failed and counts one
more failure, on what the row counted before it, or, after an accepted POST, on
nothing. -/
theorem failed_attempt_counts {forceRemote : Bool} (steady : env.Steady)
    (close : env.interrupt .close = none)
    (arms : ArmsBackoff env forceRemote s)
    (h : attempt env s forceRemote (env.settled .claim s) = some (result, t)) {n : Nat}
    (plain : ¬ Fatal env → n = s.failureCount) (fatal : Fatal env → n = 0) :
    ∃ r, result = some r ∧ r.Failed ∧ t.failureCount = n + 1 ∧
      t.nextAttemptAt = some (env.stageNow + backoffStep (n + 1)) := by
  have hend := attempt_end (P := fun r u => r.status = .failure ∧ ∃ w : SyncState,
      w.failureCount = n ∧ Counts env.stageNow w u) steady arms.lastRun close h
    fun c hheld hcount hhash => ?_
  · obtain ⟨r, u, hr, ⟨hstatus, w, rfl, hu⟩, hfc, hnext⟩ := hend
    refine ⟨r, hr, .inl hstatus, hfc.trans hu.1, ?_⟩
    rw [hnext, hu.2, backoffDelta_succ]
  · have kept : Kept env [.client, .preflight, .captureTarget, .generate, .publishedHash,
        .readSyncState, .remote, .record] fun u => u.leaseToken = some env.token ∧
          u.failureCount = s.failureCount :=
      steady.kept _ fun _ _ hsame hu =>
        ⟨hsame.leaseToken.trans hu.1, hsame.failureCount.trans hu.2⟩
    have hleaves := counts_of_armsBackoff
      (R := fun u => u.leaseToken = some env.token ∧ u.failureCount = n) s.desiredRevision
      (arms.congr hhash) kept ⟨hheld, hcount⟩
      (fun hp u hu => ⟨hu.1, hu.2.trans (plain hp).symm⟩)
      (fun hf u target hash hu _ => by
        have hd := steady.settled .diagnosis
          (SyncState.catchUp target (SyncState.stampRemote hash env.stageNow u))
        exact ⟨hd.leaseToken.trans hu.1, hd.failureCount.trans (fatal hf).symm⟩)
    rcases hleaves with ⟨r, u, hx, hstatus, w, hw, hc⟩ | ⟨e, u, hx, hheld', hlost⟩
    · exact .inl ⟨r, u, hx, hstatus, w, hw.2, hc⟩
    · exact .inr ⟨e, u, hx, hheld'.elim And.left And.left, hlost⟩

/-- **A fatal diagnosis arms the first step**, however many failures there were
before. -/
theorem fatal_arms_first_step (steady : env.Steady) (close : env.interrupt .close = none)
    (arms : ArmsBackoff env forceRemote s) (fatal : Fatal env)
    (h : attempt env s forceRemote (env.settled .claim s) = some (result, t)) :
    t.nextAttemptAt = some (env.stageNow + backoffStep 1) := by
  obtain ⟨_, _, _, _, hnext⟩ :=
    failed_attempt_counts steady close arms h (fun hp => absurd fatal hp) fun _ => rfl
  exact hnext

/-- **A steady attempt that recovers** has succeeded and counts no failure. -/
theorem recovered_attempt {pre : PreflightReport} {generated : GenerateResult}
    {report : ProjectionReport} {publish : PublishResult} {remote : RemoteSyncReport}
    (steady : env.Steady) (close : env.interrupt .close = none)
    (rec : Recovers env forceRemote s pre generated report publish remote)
    (h : attempt env s forceRemote (env.settled .claim s) = some (result, t)) :
    ∃ r, result = some r ∧ r.status = .success ∧ ¬ r.Failed ∧ t.failureCount = 0 := by
  have hend := attempt_end (P := fun r u => (r.status = .success ∧ ¬ r.Failed) ∧
      u.failureCount = 0) steady (rec.clear .lastRun (by simp)) close h
    fun c hheld _ hhash => ?_
  · obtain ⟨r, u, hr, ⟨⟨hs, hf⟩, hu⟩, hfc, _⟩ := hend
    exact ⟨r, hr, hs, hf, hfc.trans hu⟩
  · have kept : Kept env [.client, .preflight, .captureTarget, .generate, .publishedHash,
        .readSyncState, .remote] fun u => u.leaseToken = some env.token :=
      steady.kept _ fun _ _ hsame hu => hsame.leaseToken.trans hu
    have hdiffers : forceRemote = true ∨ c.lastRemoteHash ≠ some publish.bodyHash := by
      rw [hhash]
      exact rec.differs
    refine leavesOrStale_of_remote (fun p hp => rec.clear p ?_) rec.passed rec.ok rec.generate
      rec.published hdiffers rec.answer kept hheld (fun _ => id) fun target u hu => ?_
    · simp only [List.mem_cons, List.not_mem_nil, or_false] at hp ⊢
      tauto
    · unfold recordRemoteOutcome
      rw [reach_go _ (rec.clear .record (by simp)), rec.accepted]
      have hrec := (steady.settled .record u).leaseToken.trans hu
      refine leavesOrStale_of_write hrec fun _ => ?_
      rw [reach_go _ (rec.clear .diagnosis (by simp))]
      have hdiag := (steady.settled .diagnosis (SyncState.catchUp target
        (SyncState.stampRemote publish.bodyHash env.stageNow (env.settled .record u)))).leaseToken
      have hclass : classifyDiagnosis remote publish.bodyHash = (.accepted, some publish.bodyHash) ∨
          classifyDiagnosis remote publish.bodyHash = (.healthy, some publish.bodyHash) := by
        simp only [classifyDiagnosis, rec.diagnosis]
        split_ifs
        · exact .inl rfl
        · exact .inr rfl
      refine leavesOrStale_of_write (hdiag.trans hrec) fun _ => .inl ⟨_, _, rfl, ?_⟩
      rcases hclass with hc | hc
      · simp [hc, rec.settled, AttemptResult.Failed, SyncState.diagnosed]
      · simp [hc, rec.settled, AttemptResult.Failed, SyncState.diagnosed]

/-! ### Streaks -/

/-- The row, how many automatic attempts have failed on it in a row, and the
clock at which the last of them was recorded. -/
structure Streak where
  row : SyncState
  failures : Nat
  lastAt : Int

omit [UnicodeTables] in
instance (r : AttemptResult) : Decidable r.Failed :=
  have : Decidable (∃ reason, r.details = .refused reason .generate) :=
    match r.details with
    | .refused reason .generate => isTrue ⟨reason, rfl⟩
    | .refused _ .preflight => isFalse (by rintro ⟨_, h⟩; cases h)
    | .empty | .reason _ | .exception _ | .remote _ => isFalse (by rintro ⟨_, h⟩; cases h)
  inferInstanceAs (Decidable (_ ∨ _))

/-- What happens to the row: an automatic attempt, or somebody else's transaction
between two attempts. -/
inductive Turn
  | attempt (env : Env)
  | commit (token : String) (ttl : Int) (c : Commit)

namespace Streak

/-- An attempt that failed makes the streak longer, one that succeeded ends it. -/
def afterAttempt (env : Env) (st : Streak) : Streak :=
  match tick env st.row with
  | none => st
  | some (none, t) => { st with row := t }
  | some (some r, t) =>
    if r.Failed then ⟨t, st.failures + 1, env.stageNow⟩
    else if r.status = .success then ⟨t, 0, st.lastAt⟩
    else { st with row := t }

omit [UnicodeTables] in
/-- A settings change resets the backoff, which ends the streak. -/
def afterCommit (token : String) (ttl : Int) (c : Commit) (st : Streak) : Streak :=
  { st with
    row := st.row.commit token ttl c
    failures := match c with
      | .settings _ => 0
      | _ => st.failures }

def system : System Streak Turn where
  step st
    | .attempt env => some (st.afterAttempt env)
    | .commit token ttl c => some (st.afterCommit token ttl c)

omit [UnicodeTables] in
/-- **What the streak owes**: the step of the table that belongs to its length. -/
def Escalates (st : Streak) : Prop :=
  0 < st.failures → st.row.nextAttemptAt = some (st.lastAt + backoffStep st.failures)

omit [UnicodeTables] in
/-- The row's own count is the length of the streak, and the row is backed off by
it. -/
structure Counted (st : Streak) : Prop where
  count : st.row.failureCount = st.failures
  escalates : st.Escalates

/-- An attempt that is made is undisturbed, and either fails at an exit that arms
the backoff, a fatal diagnosis only as the first failure of its streak, or
recovers. -/
def Regular (st : Streak) : Turn → Prop
  | .commit _ _ _ => True
  | .attempt env => ∀ forceRemote ∈ tickGate env st.row,
      env.Steady ∧ env.interrupt .close = none ∧
        ((ArmsBackoff env forceRemote st.row ∧ (Fatal env → st.failures = 0)) ∨
          ∃ pre generated report publish remote,
            Recovers env forceRemote st.row pre generated report publish remote)

omit [UnicodeTables] in
theorem counted_commit {st : Streak} (token : String) (ttl : Int) (c : Commit)
    (h : st.Counted) : (st.afterCommit token ttl c).Counted := by
  cases c with
  | settings now => exact ⟨rfl, fun hpos => absurd hpos (Nat.lt_irrefl 0)⟩
  | heartbeat now =>
    have hsame := st.row.heartbeatLease_sameBackoff token ttl now
    exact ⟨hsame.failureCount.trans h.count,
      fun hpos => hsame.nextAttemptAt.trans (h.escalates hpos)⟩
  | core now => exact ⟨h.count, h.escalates⟩
  | forceReload enabled => exact ⟨h.count, h.escalates⟩
  | reclaimed owner peer expiresAt => exact ⟨h.count, h.escalates⟩

theorem counted_attempt {st : Streak} {env : Env} (h : st.Counted)
    (hreg : st.Regular (.attempt env)) : (st.afterAttempt env).Counted := by
  unfold afterAttempt
  rcases htick : tick env st.row with _ | ⟨result, t⟩
  · exact h
  obtain ⟨forceRemote, hgate, hatt⟩ := Option.bind_eq_some_iff.mp htick
  obtain ⟨steady, close, ⟨arms, first⟩ | ⟨_, _, _, _, _, recovers⟩⟩ := hreg forceRemote hgate
  · obtain ⟨r, rfl, hfailed, hcount, hnext⟩ := failed_attempt_counts steady close arms hatt
      (fun _ => h.count.symm) first
    simp only [hfailed, if_true]
    exact ⟨hcount, fun _ => hnext⟩
  · obtain ⟨r, rfl, hsuccess, hnot, hcount⟩ := recovered_attempt steady close recovers hatt
    simp only [hnot, if_false, hsuccess, if_true]
    exact ⟨hcount, fun hpos => absurd hpos (Nat.lt_irrefl 0)⟩

/-- **The condition is exact.**  An attempt that comes to an arming exit keeps up
the escalation exactly when its diagnosis is not fatal or it is the first failure
of its streak. -/
theorem escalates_attempt_iff {st : Streak} {env : Env} {forceRemote : Bool} {t : SyncState}
    {result : Option AttemptResult} (h : st.Counted) (steady : env.Steady)
    (close : env.interrupt .close = none) (hgate : tickGate env st.row = some forceRemote)
    (arms : ArmsBackoff env forceRemote st.row) (htick : tick env st.row = some (result, t)) :
    (st.afterAttempt env).Escalates ↔ (Fatal env → st.failures = 0) := by
  obtain ⟨forced, hforced, hatt⟩ := Option.bind_eq_some_iff.mp htick
  obtain rfl : forced = forceRemote := Option.some.inj (hforced.symm.trans hgate)
  constructor
  · intro hesc hfatal
    obtain ⟨r, rfl, hfailed, _⟩ := failed_attempt_counts steady close arms hatt
      (fun hp => absurd hfatal hp) fun _ => rfl
    have hfirst := fatal_arms_first_step steady close arms hfatal hatt
    simp only [afterAttempt, htick, hfailed, if_true] at hesc
    have hstep := hesc (Nat.succ_pos _)
    rw [hfirst, Option.some.injEq] at hstep
    change env.stageNow + backoffStep 1 = env.stageNow + backoffStep (st.failures + 1) at hstep
    by_contra hne
    have := first_lt_backoffStep (n := st.failures + 1) (by omega)
    omega
  · intro first
    exact (counted_attempt h fun forced' hforced' => by
      obtain rfl : forced' = forced := Option.some.inj (hforced'.symm.trans hgate)
      exact ⟨steady, close, .inl ⟨arms, first⟩⟩).escalates

/-- **When the backoff escalates.**  From a row that counts no failure, in every
run whose attempts are regular, the delay armed by the `n`-th failure in a row is
the `min n length`-th step of the table. -/
theorem escalates_of_run {st t : Streak} (hfresh : st.row.failureCount = 0)
    (hstart : st.failures = 0) (hrun : system.Run Regular st t) : t.Escalates := by
  have hcounted : t.Counted := by
    refine hrun.invariant (I := Counted) (fun u turn v hu hreg hstep => ?_)
      ⟨hfresh.trans hstart.symm, fun hpos => absurd (hstart ▸ hpos) (Nat.lt_irrefl 0)⟩
    cases turn with
    | attempt env =>
      cases hstep
      exact counted_attempt hu hreg
    | commit token ttl c =>
      cases hstep
      exact counted_commit token ttl c hu
  exact hcounted.escalates

end Streak

end

/-! ### The diagnosis that never backs off further -/

namespace Streak

/-- The row as the first boot leaves it. -/
def boot : Streak := ⟨SyncState.seed 0, 0, 0⟩

/-- An attempt at `now` whose POST is refused. -/
def rejectedAt (now : Int) : Turn :=
  .attempt { rejectedEnv with
    tickNow := now, claimNow := now, stageNow := now
    tick_le_claim := Int.le_refl _, claim_le_stage := Int.le_refl _ }

/-- An attempt at `now` whose POST is accepted and whose diagnosis is fatal. -/
def fatalAt (now : Int) : Turn :=
  .attempt { calmEnv with
    syncRemote := fun _ =>
      .ok ⟨false, .diagnosisFailed, true, some false, some "fatal danger", some 1, some 1, some 0⟩
    tickNow := now, claimNow := now, stageNow := now
    tick_le_claim := Int.le_refl _, claim_le_stage := Int.le_refl _ }

theorem regular_rejectedAt (st : Streak) (now : Int) (hforce : st.row.forceReload = true) :
    @Regular asciiTables st (rejectedAt now) := by
  let := asciiTables
  intro forceRemote hgate
  have hremote : forceRemote = true := by
    simp only [tickGate, hforce, Bool.not_true, Bool.and_false, Bool.true_or] at hgate
    split_ifs at hgate <;> simp_all
  refine ⟨fun p c hc => absurd hc (by simp [rejectedEnv, calmEnv]), rfl, .inl ⟨?_, ?_⟩⟩
  · exact .rejected (fun _ _ => rfl) rfl rfl rfl rfl (.inl hremote) rfl rfl
  · rintro ⟨_, _, report, _, remote, _, _, _, _, hsync, haccepted, _⟩
    cases hsync
    cases haccepted

/-- Three refused POSTs in a row wait 1, 2 and 5 minutes. -/
theorem escalates_three_rejected : ∃ t,
    (@system asciiTables).exec boot [rejectedAt (hours 1), rejectedAt (hours 2),
      rejectedAt (hours 3)] = some t ∧ t.failures = 3 ∧
    t.row.nextAttemptAt = some (hours 3 + minutes 5) ∧ t.Escalates := by
  have hmeets : (@system asciiTables).Meets (@Regular asciiTables) boot
      [rejectedAt (hours 1), rejectedAt (hours 2), rejectedAt (hours 3)] := by
    refine ⟨regular_rejectedAt _ _ rfl, fun t ht => ?_⟩
    cases ht
    refine ⟨regular_rejectedAt _ _ (by decide), fun t ht => ?_⟩
    cases ht
    exact ⟨regular_rejectedAt _ _ (by decide), fun _ _ => trivial⟩
  exact ⟨_, rfl, by decide, by decide,
    @escalates_of_run asciiTables boot _ rfl rfl (System.run_of_exec hmeets rfl)⟩

/-- **Two fatal diagnoses in a row both wait one minute**: the second is the
periodic reload of a row whose first diagnosis was fatal. -/
theorem two_fatal_not_escalated : ∃ t,
    (@system asciiTables).exec boot [fatalAt (hours 1), fatalAt (hours 8)] = some t ∧
    t.failures = 2 ∧ t.row.nextAttemptAt = some (hours 8 + minutes 1) ∧ ¬ t.Escalates := by
  refine ⟨_, rfl, by decide, by decide, fun h => ?_⟩
  exact absurd (h (by decide)) (by decide)

end Streak

end FinancialDashboard.Paisa
