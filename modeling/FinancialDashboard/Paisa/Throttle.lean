import FinancialDashboard.Paisa.Coordinator

/-!
# Which failures are throttled

An attempt that fails is to leave `next_attempt_at` at least the first backoff
step after its start.  Four exits arm the backoff: a refused preflight, a refused
generate whose reason does not read as a guard, a POST that was not accepted,
and a fatal diagnosis.  `ArmsBackoff` says on the answers of the stages that the
attempt comes to one of them.

The other failures leave the row due again at once: the timeout, an exception of
the projection, the renderer, the publisher, the client or the database, a
refused generate whose reason reads as a guard, and an accepted POST whose
diagnosis did not run.

* `quiet_or_armsBackoff`: an attempt that does not come to one of the four
  leaves a row that was not backed off as little backed off as it was.
* `armed_of_armsBackoff`: one that does, arms it.
* `failed_attempt_throttled_iff`: so a failed attempt is throttled exactly when
  it came to one of the four and no settings change cleared the backoff again.
-/

namespace FinancialDashboard.Paisa

open PyTime PyText

/-! ### Running a program -/

section Run

variable {env : Env} {α β : Type} {p : Point} {s : SyncState}

/-- The row a program leaves, however it ends. -/
def rowOf : EStateM.Result Exit SyncState α → SyncState
  | .ok _ t => t
  | .error _ t => t

theorem reach_go (f : Unit → Attempt β) (h : env.interrupt p = none) :
    (env.reach p >>= f).run s = (f ()).run (env.settled p s) := by
  simp only [EStateM.run, bind, EStateM.bind, Env.reach, h]

theorem reach_stop (f : Unit → Attempt β) {i : Interrupt} (h : env.interrupt p = some i) :
    (env.reach p >>= f).run s = .error (.interrupt i) (env.settled p s) := by
  simp only [EStateM.run, bind, EStateM.bind, Env.reach, h]

theorem ofExcept_ok {a : α} (f : α → Attempt β) :
    (Attempt.ofExcept (.ok a) >>= f).run s = (f a).run s := rfl

theorem ofExcept_error {exc : Raised} (f : α → Attempt β) :
    (Attempt.ofExcept (.error exc) >>= f).run s = .error (.interrupt (.raised exc)) s := rfl

theorem write_go {update : SyncState → Except LeaseStaleError SyncState} {t : SyncState}
    (f : Unit → Attempt β) (h : update s = .ok t) :
    (Attempt.write update >>= f).run s = (f ()).run t := by
  simp only [EStateM.run, bind, EStateM.bind, Attempt.write, h]

theorem write_stale {update : SyncState → Except LeaseStaleError SyncState} {e : LeaseStaleError}
    (f : Unit → Attempt β) (h : update s = .error e) :
    (Attempt.write update >>= f).run s = .error (.leaseStale e) s := by
  simp only [EStateM.run, bind, EStateM.bind, Attempt.write, h]

theorem run_bind_ok {x : Attempt α} {a : α} {t : SyncState} (f : α → Attempt β)
    (h : x.run s = .ok a t) : (x >>= f).run s = (f a).run t := by
  simp only [EStateM.run, bind, EStateM.bind] at h ⊢
  rw [h]

theorem run_bind_error {x : Attempt α} {e : Exit} {t : SyncState} (f : α → Attempt β)
    (h : x.run s = .error e t) : (x >>= f).run s = .error e t := by
  simp only [EStateM.run, bind, EStateM.bind] at h ⊢
  rw [h]

theorem get_go (f : SyncState → Attempt β) : (get >>= f).run s = (f s).run s := rfl

end Run

/-! ### Backed off, or not -/

/-- The first step of the backoff table. -/
def firstBackoff : Int := backoffDelta 1 backoffMinutes

/-- No step of the table is below the first. -/
theorem firstBackoff_le (n : Nat) : firstBackoff ≤ backoffDelta (n + 1) backoffMinutes := by
  have h : ∀ k ≤ 4, firstBackoff ≤ backoffDelta (k + 1) backoffMinutes := by decide
  rcases Nat.le_total n 4 with hn | hn
  · exact h n hn
  · have hk : backoffDelta (n + 1) backoffMinutes = backoffDelta (4 + 1) backoffMinutes := by
      simp [backoffDelta, backoffMinutes, Nat.min_eq_right hn]
    rw [hk]
    exact h 4 (Nat.le_refl 4)

namespace SyncState

/-- Not backed off past `now`. -/
def Quiet (now : Int) (s : SyncState) : Prop := ∀ t ∈ s.nextAttemptAt, t ≤ now

/-- Backed off to `bound` at least. -/
def BackedOff (bound : Int) (s : SyncState) : Prop := ∃ t, s.nextAttemptAt = some t ∧ bound ≤ t

variable {now bound : Int} {s : SyncState}

theorem not_backedOff_of_quiet (h : s.Quiet now) (hlt : now < bound) : ¬ s.BackedOff bound := by
  rintro ⟨t, ht, hb⟩
  have := h t ht
  omega

/-- A row that is backed off is not due before the backoff is over. -/
theorem not_due_of_backedOff (h : s.BackedOff bound) (hlt : now < bound) :
    (reconcileEligibility s now).due = false := by
  obtain ⟨t, ht, hb⟩ := h
  have : now < t := by omega
  simp [reconcileEligibility, ht, this]

/-- What another's transaction does to the backoff: the settings trigger clears
it, nothing else moves it. -/
theorem commit_nextAttemptAt (token : String) (ttl : Int) (s : SyncState) (c : Commit) :
    (s.commit token ttl c).nextAttemptAt = s.nextAttemptAt ∨
      ∃ t, c = .settings t ∧ (s.commit token ttl c).nextAttemptAt = none := by
  cases c with
  | core t => exact .inl rfl
  | settings t => exact .inr ⟨t, rfl, rfl⟩
  | forceReload b => exact .inl rfl
  | heartbeat t =>
    left
    simp only [commit, heartbeatLease]
    split_ifs <;> rfl
  | reclaimed owner peer expiresAt => exact .inl rfl

theorem commit_lastRemoteHash (token : String) (ttl : Int) (s : SyncState) (c : Commit) :
    (s.commit token ttl c).lastRemoteHash = s.lastRemoteHash := by
  cases c with
  | heartbeat t =>
    simp only [commit, heartbeatLease]
    split_ifs <;> rfl
  | core | settings | forceReload | reclaimed => rfl

end SyncState

namespace Env

variable (env : Env) (p : Point) {s : SyncState} {now bound : Int}

/-- No settings change commits at these points. -/
def NoSettings (ps : List Point) : Prop :=
  ∀ p ∈ ps, ∀ now, Commit.settings now ∉ env.commits p

/-- Nothing ends the attempt at these points. -/
def Clear (ps : List Point) : Prop := ∀ p ∈ ps, env.interrupt p = none

theorem settled_induction {P : SyncState → Prop} (h : P s)
    (hstep : ∀ t, ∀ c ∈ env.commits p, P t → P (t.commit env.token env.leaseTtl c)) :
    P (env.settled p s) := by
  unfold settled
  generalize env.commits p = cs at hstep
  induction cs generalizing s with
  | nil => exact h
  | cons c cs ih =>
    rw [List.foldl_cons]
    exact ih (hstep _ c (by simp) h) fun t d hd => hstep t d (List.mem_cons_of_mem c hd)

theorem settled_quiet (h : s.Quiet now) : (env.settled p s).Quiet now := by
  refine env.settled_induction p h fun t c _ ht => ?_
  rcases t.commit_nextAttemptAt env.token env.leaseTtl c with hc | ⟨_, _, hc⟩
  · unfold SyncState.Quiet
    rw [hc]
    exact ht
  · simp [SyncState.Quiet, hc]

theorem settled_lastRemoteHash : (env.settled p s).lastRemoteHash = s.lastRemoteHash :=
  env.settled_induction p (P := fun t => t.lastRemoteHash = s.lastRemoteHash) rfl
    fun t c _ ht => (t.commit_lastRemoteHash _ _ c).trans ht

theorem settled_backedOff (hn : env.NoSettings [p]) (h : s.BackedOff bound) :
    (env.settled p s).BackedOff bound := by
  refine env.settled_induction p h fun t c hc ht => ?_
  rcases t.commit_nextAttemptAt env.token env.leaseTtl c with hk | ⟨u, rfl, _⟩
  · unfold SyncState.BackedOff
    rw [hk]
    exact ht
  · exact absurd hc (hn p (by simp) u)

/-- What one transaction at `p` brings about and the others keep holds after `p`. -/
theorem settled_of_mem {P : SyncState → Prop} {c : Commit} (hc : c ∈ env.commits p)
    (hset : ∀ t : SyncState, P (t.commit env.token env.leaseTtl c))
    (hstep : ∀ t : SyncState, ∀ d ∈ env.commits p, P t → P (t.commit env.token env.leaseTtl d))
    (s : SyncState) : P (env.settled p s) := by
  obtain ⟨before, after, hsplit⟩ := List.append_of_mem hc
  have keeps : ∀ ds : List Commit, (∀ d ∈ ds, d ∈ env.commits p) → ∀ t, P t →
      P (ds.foldl (SyncState.commit env.token env.leaseTtl) t) := by
    intro ds
    induction ds with
    | nil => exact fun _ t ht => ht
    | cons d ds ih =>
      intro hds t ht
      exact ih (fun e he => hds e (List.mem_cons_of_mem d he)) _ (hstep t d (hds d (by simp)) ht)
  unfold settled
  rw [hsplit, List.foldl_append, List.foldl_cons]
  exact keeps after (fun d hd => by simp [hsplit, hd]) _ (hset _)

/-- A settings change clears the backoff for good: nothing here arms it again. -/
theorem settled_cleared {u : Int} (hu : Commit.settings u ∈ env.commits p) (s : SyncState) :
    (env.settled p s).nextAttemptAt = none := by
  refine env.settled_of_mem p (P := fun t => t.nextAttemptAt = none) hu (fun _ => rfl)
    (fun t d _ ht => ?_) s
  rcases t.commit_nextAttemptAt env.token env.leaseTtl d with hk | ⟨_, _, hk⟩
  · exact hk.trans ht
  · exact hk

end Env

/-! ### The exits that arm the backoff -/

section

variable [UnicodeTables] {env : Env} {forceRemote : Bool} {guardTarget : Int} {s : SyncState}

/-- The answers of the stages take the attempt, uninterrupted, to an exit that
arms the backoff. -/
inductive ArmsBackoff (env : Env) (forceRemote : Bool) (s : SyncState) : Prop
  | preflight {pre : PreflightReport}
      (clear : env.Clear [.lastRun, .client, .preflight, .record])
      (answer : env.preflight = .ok pre) (refused : pre.ok = false)
      (real : pre.outcome.filter (· ∈ guardOutcomes) = none)
  | generate {pre : PreflightReport} {generated : GenerateResult}
      (clear : env.Clear [.lastRun, .client, .preflight, .captureTarget, .generate, .record])
      (passed : env.preflight = .ok pre) (ok : pre.ok = true)
      (answer : env.generate = .ok generated) (refused : generated.complete = none)
      (unguarded : guardOutcomeToken generated.reason = none)
  | rejected {pre : PreflightReport} {generated : GenerateResult} {report : ProjectionReport}
      {publish : PublishResult} {remote : RemoteSyncReport}
      (clear : env.Clear [.lastRun, .client, .preflight, .captureTarget, .generate,
        .publishedHash, .readSyncState, .remote, .record])
      (passed : env.preflight = .ok pre) (ok : pre.ok = true)
      (generate : env.generate = .ok generated)
      (published : generated.complete = some (report, publish))
      (differs : forceRemote = true ∨ s.lastRemoteHash ≠ some publish.bodyHash)
      (answer : env.syncRemote report = .ok remote) (refused : remote.postAccepted = false)
  | fatal {pre : PreflightReport} {generated : GenerateResult} {report : ProjectionReport}
      {publish : PublishResult} {remote : RemoteSyncReport}
      (clear : env.Clear [.lastRun, .client, .preflight, .captureTarget, .generate,
        .publishedHash, .readSyncState, .remote, .record, .diagnosis])
      (passed : env.preflight = .ok pre) (ok : pre.ok = true)
      (generate : env.generate = .ok generated)
      (published : generated.complete = some (report, publish))
      (differs : forceRemote = true ∨ s.lastRemoteHash ≠ some publish.bodyHash)
      (answer : env.syncRemote report = .ok remote) (accepted : remote.postAccepted = true)
      (diagnosis : remote.diagnosisOk = some false)

variable {now : Int} {α : Type}

omit [UnicodeTables] in
/-- A guarded update that does not raise `next_attempt_at`, and what follows it. -/
theorem quiet_of_write {token : String} {update : SyncState → SyncState} {f : Unit → Attempt α}
    (hq : s.Quiet now)
    (hu : ∀ t, (update t).nextAttemptAt = t.nextAttemptAt ∨ (update t).nextAttemptAt = none)
    (hf : ∀ t, t.Quiet now → (rowOf ((f ()).run t)).Quiet now) :
    (rowOf ((Attempt.write (fun s => s.guarded token update) >>= f).run s)).Quiet now := by
  rcases hw : s.guarded token update with e | t
  · rw [write_stale f hw]
    exact hq
  · rw [write_go f hw]
    refine hf t ?_
    obtain ⟨_, rfl⟩ := SyncState.guarded_ok_iff.mp hw
    rcases hu s with h | h
    · unfold SyncState.Quiet
      rw [h]
      exact hq
    · simp [SyncState.Quiet, h]

/-- A preflight outcome is quiet, or it is a real failure and gets recorded. -/
theorem recordPreflightOutcome_quiet (pre : PreflightReport) (hq : s.Quiet now) :
    (rowOf ((recordPreflightOutcome env pre guardTarget).run s)).Quiet now ∨
      (env.interrupt .record = none ∧ pre.outcome.filter (· ∈ guardOutcomes) = none) := by
  unfold recordPreflightOutcome
  cases hr : env.interrupt .record with
  | some i =>
    rw [reach_stop _ hr]
    exact .inl (env.settled_quiet _ hq)
  | none =>
    rw [reach_go _ hr]
    cases hg : pre.outcome.filter (· ∈ guardOutcomes) with
    | none => exact .inr ⟨rfl, rfl⟩
    | some guard =>
      exact .inl (quiet_of_write (env.settled_quiet _ hq) (fun _ => .inl rfl) fun _ ht => ht)

/-- A refused generate is quiet, or its reason is no guard and gets recorded. -/
theorem recordGenerateOutcome_quiet (generated : GenerateResult) (hq : s.Quiet now) :
    (rowOf ((recordGenerateOutcome env generated guardTarget).run s)).Quiet now ∨
      (env.interrupt .record = none ∧ guardOutcomeToken generated.reason = none) := by
  unfold recordGenerateOutcome
  cases hr : env.interrupt .record with
  | some i =>
    rw [reach_stop _ hr]
    exact .inl (env.settled_quiet _ hq)
  | none =>
    rw [reach_go _ hr]
    cases hg : guardOutcomeToken generated.reason with
    | none => exact .inr ⟨rfl, rfl⟩
    | some guard =>
      exact .inl (quiet_of_write (env.settled_quiet _ hq) (fun _ => .inl rfl) fun _ ht => ht)

/-- A remote outcome is quiet, or it is a POST not accepted, or a fatal diagnosis. -/
theorem recordRemoteOutcome_quiet (remote : RemoteSyncReport) (bodyHash : String) (emitted : Nat)
    (target : Int) (hq : s.Quiet now) :
    (rowOf ((recordRemoteOutcome env remote bodyHash emitted target).run s)).Quiet now ∨
      (env.interrupt .record = none ∧ remote.postAccepted = false) ∨
      (env.interrupt .record = none ∧ env.interrupt .diagnosis = none ∧
        remote.postAccepted = true ∧ remote.diagnosisOk = some false) := by
  unfold recordRemoteOutcome
  cases hr : env.interrupt .record with
  | some i =>
    rw [reach_stop _ hr]
    exact .inl (env.settled_quiet _ hq)
  | none =>
    rw [reach_go _ hr]
    cases ha : remote.postAccepted with
    | false => exact .inr (.inl ⟨rfl, rfl⟩)
    | true =>
      cases hd : env.interrupt .diagnosis with
      | some i =>
        left
        refine quiet_of_write (env.settled_quiet _ hq) (fun _ => .inr rfl) fun t ht => ?_
        rw [reach_stop _ hd]
        exact env.settled_quiet _ ht
      | none =>
        by_cases hf : remote.diagnosisOk = some false
        · exact .inr (.inr ⟨rfl, rfl, rfl, hf⟩)
        · left
          refine quiet_of_write (env.settled_quiet _ hq) (fun _ => .inr rfl) fun t ht => ?_
          rw [reach_go _ hd]
          refine quiet_of_write (env.settled_quiet _ ht) (fun u => ?_) fun _ hu => hu
          unfold classifyDiagnosis
          rcases hok : remote.diagnosisOk with _ | ok
          · exact .inl rfl
          · cases ok with
            | false => exact absurd hok hf
            | true =>
              dsimp only
              split_ifs
              · exact .inr rfl
              · exact .inr rfl

omit [UnicodeTables] in
/-- The no-op is not taken: the run is forced, or the remote holds other bytes. -/
theorem differs_of_not_skip {snap : SyncState} {hash : String}
    (h : ¬ (!forceRemote && shouldSkipRemotePost (some hash) snap) = true) :
    forceRemote = true ∨ snap.lastRemoteHash ≠ some hash := by
  cases forceRemote with
  | true => exact .inl rfl
  | false =>
    right
    intro hs
    simp [shouldSkipRemotePost, hs] at h

omit [UnicodeTables] in
theorem skip_eq_false {snap : SyncState} {hash : String}
    (h : forceRemote = true ∨ snap.lastRemoteHash ≠ some hash) :
    (!forceRemote && shouldSkipRemotePost (some hash) snap) = false := by
  rcases h with h | h
  · simp [h]
  · cases hs : snap.lastRemoteHash with
    | none => simp [shouldSkipRemotePost, hs]
    | some remote =>
      have : remote ≠ hash := fun e => h (by rw [hs, e])
      simp [shouldSkipRemotePost, hs, this]

/-- The second half of the stages is quiet, or gets to record a refused POST or a
fatal diagnosis. -/
theorem publishAndSync_quiet (report : ProjectionReport) (publish : PublishResult) (target : Int)
    (hq : s.Quiet now) :
    (rowOf ((publishAndSync env report publish forceRemote target).run s)).Quiet now ∨
      env.Clear [.publishedHash, .readSyncState, .remote, .record] ∧
        (forceRemote = true ∨ s.lastRemoteHash ≠ some publish.bodyHash) ∧
        ∃ remote, env.syncRemote report = .ok remote ∧ (remote.postAccepted = false ∨
          env.interrupt .diagnosis = none ∧ remote.postAccepted = true ∧
            remote.diagnosisOk = some false) := by
  unfold publishAndSync
  cases hp : env.interrupt .publishedHash with
  | some i =>
    rw [reach_stop _ hp]
    exact .inl (env.settled_quiet _ hq)
  | none =>
    rw [reach_go _ hp]
    rcases hw : (env.settled .publishedHash s).recordPublishedHash publish.bodyHash env.token
      with e | u
    · rw [write_stale _ hw]
      exact .inl (env.settled_quiet _ hq)
    rw [write_go _ hw]
    obtain ⟨_, rfl⟩ := SyncState.guarded_ok_iff.mp hw
    have hqu : SyncState.Quiet now { env.settled .publishedHash s with
      lastPublishedHash := some publish.bodyHash } := env.settled_quiet .publishedHash hq
    cases hr : env.interrupt .readSyncState with
    | some i =>
      rw [reach_stop _ hr]
      exact .inl (env.settled_quiet _ hqu)
    | none =>
      rw [reach_go _ hr, get_go]
      split_ifs with hskip
      · left
        cases hc : env.interrupt .record with
        | some i =>
          rw [reach_stop _ hc]
          exact env.settled_quiet _ (env.settled_quiet _ hqu)
        | none =>
          rw [reach_go _ hc]
          exact quiet_of_write (env.settled_quiet _ (env.settled_quiet _ hqu)) (fun _ => .inl rfl)
            fun _ ht => ht
      · have hdiff := differs_of_not_skip hskip
        rw [Env.settled_lastRemoteHash] at hdiff
        change forceRemote = true ∨ (env.settled .publishedHash s).lastRemoteHash ≠ _ at hdiff
        rw [Env.settled_lastRemoteHash] at hdiff
        cases hm : env.interrupt .remote with
        | some i =>
          rw [reach_stop _ hm]
          exact .inl (env.settled_quiet _ (env.settled_quiet _ hqu))
        | none =>
          rw [reach_go _ hm]
          cases hs : env.syncRemote report with
          | error exc =>
            rw [ofExcept_error]
            exact .inl (env.settled_quiet _ (env.settled_quiet _ hqu))
          | ok remote =>
            rw [ofExcept_ok]
            rcases recordRemoteOutcome_quiet remote publish.bodyHash report.emittedCount target
              (env.settled_quiet .remote (env.settled_quiet .readSyncState hqu))
              with h | ⟨hc, ha⟩ | ⟨hc, hd, ha, hf⟩
            · exact .inl h
            · exact .inr ⟨by simp [Env.Clear, hp, hr, hm, hc], hdiff, remote, rfl, .inl ha⟩
            · exact .inr ⟨by simp [Env.Clear, hp, hr, hm, hc], hdiff, remote, rfl,
                .inr ⟨hd, ha, hf⟩⟩

/-- **An attempt that does not come to one of the four exits leaves a quiet row
quiet.** -/
theorem quiet_or_armsBackoff (forceRemote : Bool) (guardTarget : Int)
    (hl : env.interrupt .lastRun = none) (hq : s.Quiet now) :
    (rowOf ((runAttemptStages env forceRemote guardTarget).run s)).Quiet now ∨
      ArmsBackoff env forceRemote s := by
  unfold runAttemptStages
  cases hc : env.interrupt .client with
  | some i =>
    rw [reach_stop _ hc]
    exact .inl (env.settled_quiet _ hq)
  | none =>
    rw [reach_go _ hc]
    cases hp : env.interrupt .preflight with
    | some i =>
      rw [reach_stop _ hp]
      exact .inl (env.settled_quiet _ (env.settled_quiet _ hq))
    | none =>
      rw [reach_go _ hp]
      have hq2 := env.settled_quiet .preflight
        (env.settled_quiet .client hq)
      cases ha : env.preflight with
      | error exc =>
        rw [ofExcept_error]
        exact .inl hq2
      | ok pre =>
        rw [ofExcept_ok]
        cases hok : pre.ok with
        | false =>
          rcases recordPreflightOutcome_quiet pre hq2 with h | ⟨hr, hg⟩
          · exact .inl h
          · exact .inr (.preflight (by simp [Env.Clear, hl, hc, hp, hr]) ha hok hg)
        | true =>
          simp only [Bool.not_true, Bool.false_eq_true, if_false]
          cases ht : env.interrupt .captureTarget with
          | some i =>
            rw [reach_stop _ ht]
            exact .inl (env.settled_quiet _ hq2)
          | none =>
            rw [reach_go _ ht, get_go]
            have hq3 := env.settled_quiet .captureTarget hq2
            cases hg : env.interrupt .generate with
            | some i =>
              rw [reach_stop _ hg]
              exact .inl (env.settled_quiet _ hq3)
            | none =>
              rw [reach_go _ hg]
              have hq4 := env.settled_quiet .generate hq3
              cases hgen : env.generate with
              | error exc =>
                rw [ofExcept_error]
                exact .inl hq4
              | ok generated =>
                rw [ofExcept_ok]
                cases hcomp : generated.complete with
                | none =>
                  rcases recordGenerateOutcome_quiet generated hq4 with h | ⟨hr, hun⟩
                  · exact .inl h
                  · exact .inr (.generate (by simp [Env.Clear, hl, hc, hp, ht, hg, hr]) ha hok hgen
                      hcomp hun)
                | some pair =>
                  obtain ⟨report, publish⟩ := pair
                  rcases publishAndSync_quiet report publish _ hq4 with
                    h | ⟨hclear, hdiff, remote, hs, hrej | ⟨hd, hacc, hfat⟩⟩
                  · exact .inl h
                  · simp only [Env.settled_lastRemoteHash] at hdiff
                    refine .inr (.rejected ?_ ha hok hgen hcomp hdiff hs hrej)
                    simpa [Env.Clear, hl, hc, hp, ht, hg] using hclear
                  · simp only [Env.settled_lastRemoteHash] at hdiff
                    refine .inr (.fatal ?_ ha hok hgen hcomp hdiff hs hacc hfat)
                    simpa [Env.Clear, hl, hc, hp, ht, hg, hd] using hclear

/-! ### What those exits leave -/

/-- The program comes back with a value and a row that meet `P`, or finds its
lease lost on a row that meets `W`. -/
def LeavesOrStale (env : Env) (W : SyncState → Prop) (P : α → SyncState → Prop)
    (x : EStateM.Result Exit SyncState α) : Prop :=
  (∃ r t, x = .ok r t ∧ P r t) ∨
    ∃ e t, x = .error (.leaseStale e) t ∧ W t ∧ t.leaseToken ≠ some env.token

/-- The program comes back with the row backed off, or finds its lease lost. -/
def ArmedOrStale (bound : Int) (x : EStateM.Result Exit SyncState α) : Prop :=
  (∃ r t, x = .ok r t ∧ t.BackedOff bound) ∨ ∃ e t, x = .error (.leaseStale e) t

/-- `u` is `w` with one more failure counted, and backed off for that many. -/
def Counts (now : Int) (w u : SyncState) : Prop :=
  u.failureCount = w.failureCount + 1 ∧
    u.nextAttemptAt = some (now + backoffDelta (w.failureCount + 1) backoffMinutes)

/-- The answers are those of an accepted POST with a fatal diagnosis. -/
def Fatal (env : Env) : Prop :=
  ∃ pre generated report publish remote, env.preflight = .ok pre ∧ pre.ok = true ∧
    env.generate = .ok generated ∧ generated.complete = some (report, publish) ∧
    env.syncRemote report = .ok remote ∧ remote.postAccepted = true ∧
    remote.diagnosisOk = some false

section Leaves

variable {W Q : SyncState → Prop} {P : α → SyncState → Prop}

omit [UnicodeTables] in
theorem leavesOrStale_of_write {update : SyncState → SyncState} {f : Unit → Attempt α}
    (hs : W s)
    (hf : s.leaseToken = some env.token → LeavesOrStale env W P ((f ()).run (update s))) :
    LeavesOrStale env W P ((Attempt.write (fun s => s.guarded env.token update) >>= f).run s) := by
  by_cases hheld : s.leaseToken = some env.token
  · rw [write_go f (SyncState.guarded_of_eq hheld)]
    exact hf hheld
  · rw [write_stale f (SyncState.guarded_of_ne hheld)]
    exact .inr ⟨_, _, rfl, hs, hheld⟩

/-- A fact about the row that the others' transactions at `ps` and the checkpoint
of the published hash leave. -/
structure Kept (env : Env) (ps : List Point) (Q : SyncState → Prop) : Prop where
  settled : ∀ p ∈ ps, ∀ t, Q t → Q (env.settled p t)
  published : ∀ t hash, Q t → Q { t with lastPublishedHash := some hash }

/-- The way to the remote stage and through it. -/
theorem leavesOrStale_of_remote {pre : PreflightReport} {generated : GenerateResult}
    {report : ProjectionReport} {publish : PublishResult} {remote : RemoteSyncReport}
    (clear : env.Clear [.client, .preflight, .captureTarget, .generate, .publishedHash,
      .readSyncState, .remote])
    (passed : env.preflight = .ok pre) (ok : pre.ok = true)
    (generate : env.generate = .ok generated)
    (published : generated.complete = some (report, publish))
    (differs : forceRemote = true ∨ s.lastRemoteHash ≠ some publish.bodyHash)
    (answer : env.syncRemote report = .ok remote)
    {P : AttemptResult → SyncState → Prop}
    (kept : Kept env [.client, .preflight, .captureTarget, .generate, .publishedHash,
      .readSyncState, .remote] Q) (hQ : Q s) (hW : ∀ t, Q t → W t)
    (hrec : ∀ target u, Q u → LeavesOrStale env W P
      ((recordRemoteOutcome env remote publish.bodyHash report.emittedCount target).run u)) :
    LeavesOrStale env W P ((runAttemptStages env forceRemote guardTarget).run s) := by
  unfold runAttemptStages
  rw [reach_go _ (clear .client (by simp)), reach_go _ (clear .preflight (by simp)), passed,
    ofExcept_ok]
  simp only [ok, Bool.not_true, Bool.false_eq_true, if_false]
  rw [reach_go _ (clear .captureTarget (by simp)), get_go,
    reach_go _ (clear .generate (by simp)), generate, ofExcept_ok, published]
  simp only [publishAndSync]
  rw [reach_go _ (clear .publishedHash (by simp))]
  have h5 : Q (env.settled .publishedHash (env.settled .generate (env.settled .captureTarget
      (env.settled .preflight (env.settled .client s))))) :=
    kept.settled _ (by simp) _ (kept.settled _ (by simp) _ (kept.settled _ (by simp) _
      (kept.settled _ (by simp) _ (kept.settled _ (by simp) _ hQ))))
  refine leavesOrStale_of_write (hW _ h5) fun _ => ?_
  rw [reach_go _ (clear .readSyncState (by simp)), get_go]
  have hdiff : forceRemote = true ∨ (env.settled .readSyncState
      { env.settled .publishedHash (env.settled .generate (env.settled .captureTarget
        (env.settled .preflight (env.settled .client s)))) with
        lastPublishedHash := some publish.bodyHash }).lastRemoteHash ≠ some publish.bodyHash := by
    simpa only [Env.settled_lastRemoteHash] using differs
  rw [skip_eq_false hdiff]
  simp only [Bool.false_eq_true, if_false]
  rw [reach_go _ (clear .remote (by simp)), answer, ofExcept_ok]
  exact hrec _ _ (kept.settled _ (by simp) _ (kept.settled _ (by simp) _ (kept.published _ _ h5)))

/-- **What an arming attempt counts.**  `Q` holds of the row up to the record,
`R` of the row the failure is counted on: that is the row as it is then, or, of a
fatal diagnosis, the row the accepted POST has just reset. -/
theorem counts_of_armsBackoff {Q R : SyncState → Prop} (guardTarget : Int)
    (h : ArmsBackoff env forceRemote s)
    (kept : Kept env [.client, .preflight, .captureTarget, .generate, .publishedHash,
      .readSyncState, .remote, .record] Q) (hQ : Q s)
    (plain : ¬ Fatal env → ∀ t, Q t → R t)
    (fatal : Fatal env → ∀ t target hash, Q t → t.leaseToken = some env.token →
      R (env.settled .diagnosis
        (SyncState.catchUp target (SyncState.stampRemote hash env.stageNow t)))) :
    LeavesOrStale env (fun t => Q t ∨ R t)
      (fun r u => r.status = .failure ∧ ∃ w, R w ∧ Counts env.stageNow w u)
      ((runAttemptStages env forceRemote guardTarget).run s) := by
  have keptTo : Kept env [.client, .preflight, .captureTarget, .generate, .publishedHash,
      .readSyncState, .remote] Q :=
    ⟨fun p hp => kept.settled p (List.mem_append_left [Point.record] hp), kept.published⟩
  have hpre : Q (env.settled .preflight (env.settled .client s)) :=
    kept.settled _ (by simp) _ (kept.settled _ (by simp) _ hQ)
  cases h with
  | preflight clear answer refused real =>
    have hplain : ¬ Fatal env := by
      rintro ⟨pre', _, _, _, _, hpass, hok, _⟩
      rw [answer] at hpass
      cases hpass
      simp [refused] at hok
    unfold runAttemptStages
    rw [reach_go _ (clear .client (by simp)), reach_go _ (clear .preflight (by simp)), answer,
      ofExcept_ok]
    simp only [refused, Bool.not_false, if_true]
    unfold recordPreflightOutcome
    rw [reach_go _ (clear .record (by simp)), real]
    have hrec := kept.settled .record (by simp) _ hpre
    exact leavesOrStale_of_write (.inl hrec) fun _ =>
      .inl ⟨_, _, rfl, rfl, _, plain hplain _ hrec, rfl, rfl⟩
  | generate clear passed ok answer refused unguarded =>
    have hplain : ¬ Fatal env := by
      rintro ⟨_, generated', _, _, _, _, _, hgen, hcomp, _⟩
      rw [answer] at hgen
      cases hgen
      simp [refused] at hcomp
    unfold runAttemptStages
    rw [reach_go _ (clear .client (by simp)), reach_go _ (clear .preflight (by simp)), passed,
      ofExcept_ok]
    simp only [ok, Bool.not_true, Bool.false_eq_true, if_false]
    rw [reach_go _ (clear .captureTarget (by simp)), get_go,
      reach_go _ (clear .generate (by simp)), answer, ofExcept_ok, refused]
    unfold recordGenerateOutcome
    rw [reach_go _ (clear .record (by simp)), unguarded]
    have hrec := kept.settled .record (by simp) _ (kept.settled .generate (by simp) _
      (kept.settled .captureTarget (by simp) _ hpre))
    exact leavesOrStale_of_write (.inl hrec) fun _ =>
      .inl ⟨_, _, rfl, rfl, _, plain hplain _ hrec, rfl, rfl⟩
  | rejected clear passed ok generate published differs answer refused =>
    have hplain : ¬ Fatal env := by
      rintro ⟨_, generated', report', publish', remote', _, _, hgen, hcomp, hsync, hacc, _⟩
      rw [generate] at hgen
      cases hgen
      rw [published] at hcomp
      cases hcomp
      rw [answer] at hsync
      cases hsync
      simp [refused] at hacc
    refine leavesOrStale_of_remote (fun p hp => clear p ?_) passed ok generate published differs
      answer keptTo hQ (fun _ => .inl) fun target u hu => ?_
    · exact List.mem_cons_of_mem Point.lastRun (List.mem_append_left [Point.record] hp)
    · unfold recordRemoteOutcome
      rw [reach_go _ (clear .record (by simp)), refused]
      have hrec := kept.settled .record (by simp) _ hu
      exact leavesOrStale_of_write (.inl hrec) fun _ =>
        .inl ⟨_, _, rfl, rfl, _, plain hplain _ hrec, rfl, rfl⟩
  | @fatal _ _ _ publish _ clear passed ok generate published differs answer accepted diagnosis =>
    refine leavesOrStale_of_remote (fun p hp => clear p ?_) passed ok generate published differs
      answer keptTo hQ (fun _ => .inl) fun target u hu => ?_
    · exact List.mem_cons_of_mem Point.lastRun (List.mem_append_left [Point.record, .diagnosis] hp)
    · unfold recordRemoteOutcome
      rw [reach_go _ (clear .record (by simp)), accepted]
      have hrec := kept.settled .record (by simp) _ hu
      refine leavesOrStale_of_write (.inl hrec) fun hheld => ?_
      rw [reach_go _ (clear .diagnosis (by simp))]
      have hfatal : Fatal env :=
        ⟨_, _, _, _, _, passed, ok, generate, published, answer, accepted, diagnosis⟩
      have hcount := fatal hfatal _ target publish.bodyHash hrec hheld
      simp only [classifyDiagnosis, diagnosis]
      refine leavesOrStale_of_write (.inr hcount) fun _ => .inl ⟨_, _, rfl, ?_, _, hcount, rfl, rfl⟩
      simp

end Leaves

omit [UnicodeTables] in
/-- Counting at the stages' clock backs off to the first step after the claim at
least. -/
theorem backedOff_of_counts {w u : SyncState} (h : Counts env.stageNow w u) :
    u.BackedOff (env.claimNow + firstBackoff) := by
  refine ⟨_, h.2, ?_⟩
  have h1 := firstBackoff_le w.failureCount
  have h2 := env.claim_le_stage
  omega

/-- **Each of the four exits arms the backoff.** -/
theorem armed_of_armsBackoff (guardTarget : Int) (h : ArmsBackoff env forceRemote s) :
    ArmedOrStale (env.claimNow + firstBackoff)
      ((runAttemptStages env forceRemote guardTarget).run s) := by
  have kept : Kept env [.client, .preflight, .captureTarget, .generate, .publishedHash,
      .readSyncState, .remote, .record] fun _ => True :=
    ⟨fun _ _ _ => id, fun _ _ => id⟩
  rcases counts_of_armsBackoff guardTarget h kept trivial (fun _ _ => id)
    (fun _ _ _ _ _ _ => trivial) with ⟨r, u, hx, _, w, _, hcount⟩ | ⟨e, t, hx, _⟩
  · exact .inl ⟨r, u, hx, backedOff_of_counts hcount⟩
  · exact .inr ⟨e, t, hx⟩

/-! ### The whole attempt -/

omit [UnicodeTables] in
theorem released_nextAttemptAt (env : Env) (s : SyncState) :
    (env.released s).nextAttemptAt = (env.settled .release s).nextAttemptAt := by
  simp only [Env.released, SyncState.releaseLease]
  split_ifs <;> rfl

omit [UnicodeTables] in
theorem released_quiet (hq : s.Quiet now) : (env.released s).Quiet now := by
  unfold SyncState.Quiet
  rw [released_nextAttemptAt]
  exact env.settled_quiet _ hq

omit [UnicodeTables] in
theorem released_backedOff {bound : Int} (hn : env.NoSettings [.release]) (h : s.BackedOff bound) :
    (env.released s).BackedOff bound := by
  unfold SyncState.BackedOff
  rw [released_nextAttemptAt]
  exact env.settled_backedOff _ hn h

/-- How an attempt that got the lease can end: before the stages, in them, or after. -/
theorem attempt_cases {snapshot : SyncState} {result : Option AttemptResult} {t : SyncState}
    (h : attempt env snapshot forceRemote s = some (result, t)) :
    ∃ c, s.claimLease env.owner env.token env.leaseTtl env.claimNow = some c ∧
      ((∃ i, env.interrupt .lastRun = some i ∧ result = resultOfExit (.interrupt i) ∧
          t = env.released (env.settled .lastRun c)) ∨
        env.interrupt .lastRun = none ∧
          ((∃ e u, (runAttemptStages env forceRemote snapshot.desiredRevision).run
              (env.settled .lastRun c) = .error e u ∧ result = resultOfExit e ∧
              t = env.released u) ∨
            ∃ r u, (runAttemptStages env forceRemote snapshot.desiredRevision).run
              (env.settled .lastRun c) = .ok r u ∧ t = env.released (env.settled .close u) ∧
              result = match env.interrupt .close with
                | none => some r
                | some i => resultOfExit (.interrupt i))) := by
  unfold attempt at h
  obtain ⟨c, hc, h⟩ := Option.map_eq_some_iff.mp h
  refine ⟨c, hc, ?_⟩
  unfold leasedAttempt at h
  cases hl : env.interrupt .lastRun with
  | some i =>
    rw [reach_stop _ hl] at h
    cases h
    exact .inl ⟨i, rfl, rfl, rfl⟩
  | none =>
    right
    refine ⟨rfl, ?_⟩
    rw [reach_go _ hl] at h
    rcases hx : (runAttemptStages env forceRemote snapshot.desiredRevision).run
      (env.settled .lastRun c) with ⟨r, u⟩ | ⟨e, u⟩
    · right
      rw [run_bind_ok _ hx] at h
      cases hk : env.interrupt .close with
      | some i =>
        rw [reach_stop _ hk] at h
        cases h
        exact ⟨r, u, rfl, rfl, rfl⟩
      | none =>
        rw [reach_go _ hk] at h
        cases h
        exact ⟨r, u, rfl, rfl, rfl⟩
    · left
      rw [run_bind_error _ hx] at h
      cases h
      exact ⟨e, u, rfl, rfl, rfl⟩

/-- A failed attempt: it says so, or its generate was refused. -/
def AttemptResult.Failed (r : AttemptResult) : Prop :=
  r.status = .failure ∨ ∃ reason, r.details = .refused reason .generate

/-- What the attempt owes: the first backoff step from its start, and not due
before that. -/
def Throttled (env : Env) (t : SyncState) : Prop :=
  t.BackedOff (env.claimNow + firstBackoff) ∧
    ∀ now < env.claimNow + firstBackoff, (reconcileEligibility t now).due = false

omit [UnicodeTables] in
theorem throttled_iff (t : SyncState) :
    Throttled env t ↔ t.BackedOff (env.claimNow + firstBackoff) :=
  ⟨And.left, fun h => ⟨h, fun _ hlt => SyncState.not_due_of_backedOff h hlt⟩⟩

omit [UnicodeTables] in
/-- A row the tick finds due is not backed off. -/
theorem quiet_of_tickGate (h : tickGate env s = some forceRemote) : s.Quiet env.claimNow := by
  have hdue : (reconcileEligibility s env.tickNow).due = true := by
    unfold tickGate at h
    by_contra hd
    simp [hd] at h
  intro t ht
  by_contra hlt
  have hge : env.tickNow < t := by
    have := env.tick_le_claim
    omega
  have ht' : s.nextAttemptAt = some t := ht
  simp [reconcileEligibility, ht', hge] at hdue

omit [UnicodeTables] in
theorem claimed_nextAttemptAt {c : SyncState}
    (h : s.claimLease env.owner env.token env.leaseTtl env.claimNow = some c) :
    c.nextAttemptAt = s.nextAttemptAt ∧ c.lastRemoteHash = s.lastRemoteHash := by
  obtain ⟨_, rfl⟩ := SyncState.claimLease_eq_some_iff.mp h
  exact ⟨rfl, rfl⟩

/-- The exits only look at the remote hash of the row. -/
theorem ArmsBackoff.congr {s' : SyncState} (hs : s'.lastRemoteHash = s.lastRemoteHash)
    (h : ArmsBackoff env forceRemote s) : ArmsBackoff env forceRemote s' := by
  cases h with
  | preflight clear answer refused real => exact .preflight clear answer refused real
  | generate clear passed ok answer refused unguarded =>
    exact .generate clear passed ok answer refused unguarded
  | rejected clear passed ok generate published differs answer refused =>
    exact .rejected clear passed ok generate published (by rwa [hs]) answer refused
  | fatal clear passed ok generate published differs answer accepted diagnosis =>
    exact .fatal clear passed ok generate published (by rwa [hs]) answer accepted diagnosis

theorem ArmsBackoff.lastRun (h : ArmsBackoff env forceRemote s) :
    env.interrupt .lastRun = none := by
  cases h with
  | preflight clear | generate clear | rejected clear | fatal clear =>
    exact clear .lastRun (by simp)

/-- A lost lease is no failure. -/
theorem not_failed_of_stale {e : LeaseStaleError} {r : AttemptResult}
    (h : some r = resultOfExit (.leaseStale e)) : ¬ r.Failed := by
  cases h
  rintro (h | ⟨_, h⟩)
  · cases h
  · cases h

/-- **When a failed attempt is throttled.**  It is exactly when the answers of
the stages take it to one of the four exits that arm the backoff, and no settings
change commits between that write and the release of the lease. -/
theorem failed_attempt_throttled_iff {t : SyncState} {r : AttemptResult}
    (hrun : tick env s = some (some r, t)) (hfail : r.Failed) :
    Throttled env t ↔ (∃ forceRemote ∈ tickGate env s, ArmsBackoff env forceRemote s) ∧
      env.NoSettings [.close, .release] := by
  obtain ⟨forceRemote, hgate, hatt⟩ := Option.bind_eq_some_iff.mp hrun
  obtain ⟨c, hclaim, hend⟩ := attempt_cases hatt
  obtain ⟨hcn, hch⟩ := claimed_nextAttemptAt hclaim
  have hlt : env.claimNow < env.claimNow + firstBackoff := by
    have : (0 : Int) < firstBackoff := by decide
    omega
  have hquiet : (env.settled .lastRun c).Quiet env.claimNow := by
    refine env.settled_quiet _ ?_
    unfold SyncState.Quiet
    rw [hcn]
    exact env.settled_quiet _ (quiet_of_tickGate hgate)
  have hhash : (env.settled .lastRun c).lastRemoteHash = s.lastRemoteHash := by
    rw [Env.settled_lastRemoteHash, hch, Env.settled_lastRemoteHash]
  rw [throttled_iff]
  constructor
  · intro hback
    have harms : ArmsBackoff env forceRemote s := by
      rcases hend with ⟨i, _, _, rfl⟩ | ⟨hl, hstages⟩
      · exact absurd hback (SyncState.not_backedOff_of_quiet (released_quiet hquiet) hlt)
      · rcases quiet_or_armsBackoff forceRemote s.desiredRevision hl
          hquiet with hq | harms
        · exfalso
          rcases hstages with ⟨e, u, hx, _, rfl⟩ | ⟨r', u, hx, rfl, _⟩
          · rw [hx] at hq
            exact SyncState.not_backedOff_of_quiet (released_quiet hq) hlt hback
          · rw [hx] at hq
            exact SyncState.not_backedOff_of_quiet
              (released_quiet (env.settled_quiet _ hq)) hlt hback
        · exact harms.congr hhash.symm
    refine ⟨⟨forceRemote, hgate, harms⟩, ?_⟩
    rcases hend with ⟨i, hl, _⟩ | ⟨hl, hstages⟩
    · rw [harms.lastRun] at hl
      cases hl
    · have harmed := armed_of_armsBackoff s.desiredRevision (harms.congr hhash)
      rcases hstages with ⟨e, u, hx, hr, _⟩ | ⟨r', u, hx, rfl, _⟩
      · rw [hx] at harmed
        rcases harmed with ⟨_, _, h, _⟩ | ⟨_, _, h⟩
        · cases h
        · cases h
          exact absurd hfail (not_failed_of_stale hr)
      · -- a settings change at either point would have cleared the backoff
        intro p hp u' hmem
        simp only [List.mem_cons, List.not_mem_nil, or_false] at hp
        rcases hp with rfl | rfl
        · refine SyncState.not_backedOff_of_quiet (released_quiet ?_) hlt hback
          simp [SyncState.Quiet, env.settled_cleared .close hmem u]
        · obtain ⟨w, hw, _⟩ := hback
          rw [released_nextAttemptAt, env.settled_cleared .release hmem] at hw
          cases hw
  · rintro ⟨⟨forced, hforced, harms⟩, hset⟩
    obtain rfl : forced = forceRemote := Option.some.inj (hforced.symm.trans hgate)
    rcases hend with ⟨i, hl, _⟩ | ⟨hl, hstages⟩
    · rw [harms.lastRun] at hl
      cases hl
    · have harmed := armed_of_armsBackoff s.desiredRevision (harms.congr hhash)
      rcases hstages with ⟨e, u, hx, hr, _⟩ | ⟨r', u, hx, rfl, _⟩
      · rw [hx] at harmed
        rcases harmed with ⟨_, _, h, _⟩ | ⟨_, _, h⟩
        · cases h
        · cases h
          exact absurd hfail (not_failed_of_stale hr)
      · rw [hx] at harmed
        rcases harmed with ⟨_, _, h, hb⟩ | ⟨_, _, h⟩
        · cases h
          refine released_backedOff (fun p hp => hset p ?_) (env.settled_backedOff _
            (fun p hp => hset p ?_) hb)
          · simp_all
          · simp_all
        · cases h

end

/-! ### The failure that escapes -/

/-- An attempt at one o'clock whose stages all go well, on a quiet database. -/
def calmEnv : Env where
  owner := "paisa-coordinator"
  token := "t1"
  leaseTtl := defaultLeaseTtl
  canProject := true
  autoSyncEnabled := true
  minIntervalMinutes := 1
  tickNow := hours 1
  claimNow := hours 1
  stageNow := hours 1
  preflight := .ok ⟨true, none, none⟩
  generate := .ok ⟨true, some ⟨"", 0, 0⟩, some ⟨true, "/srv/paisa/gen.ledger", "3", "h", 0⟩, none⟩
  syncRemote _ := .ok ⟨true, .synced, true, some true, none, some 0, some 0, some 0⟩
  commits _ := []
  interrupt _ := none
  tick_le_claim := Int.le_refl _
  claim_le_stage := Int.le_refl _
  reclaimed_fresh := by simp

/-- The publisher's rename meets a full disk; `publish_journal` lets the
`OSError` out. -/
def diskFullEnv : Env :=
  { calmEnv with generate := .error ⟨"OSError", "[Errno 28] No space left on device"⟩ }

/-- **A full disk is a failure that is not throttled**: the row is due again at
the very instant the attempt started. -/
theorem disk_full_not_throttled : ∃ r t,
    @tick asciiTables diskFullEnv (SyncState.seed 0) = some (some r, t) ∧ r.Failed ∧
    (reconcileEligibility t diskFullEnv.claimNow).due = true ∧ ¬ Throttled diskFullEnv t := by
  refine ⟨_, _, rfl, .inl rfl, by decide, ?_⟩
  rintro ⟨⟨w, hw, _⟩, _⟩
  cases hw

/-- The equivalence at work on a refused POST. -/
def rejectedEnv : Env :=
  { calmEnv with
    syncRemote := fun _ => .ok ⟨false, .syncRejected, false, none,
      some "/api/sync rejected: HTTP 500", none, none, none⟩ }

theorem rejected_post_throttled : ∃ r t,
    @tick asciiTables rejectedEnv (SyncState.seed 0) = some (some r, t) ∧ r.Failed ∧
    Throttled rejectedEnv t := by
  let := asciiTables
  refine ⟨_, _, rfl, .inl rfl, ?_⟩
  refine (@failed_attempt_throttled_iff asciiTables rejectedEnv (SyncState.seed 0) _ _ rfl
    (.inl rfl)).mpr ?_
  refine ⟨⟨true, rfl, .rejected (fun _ _ => rfl) rfl rfl rfl rfl (.inl rfl) rfl rfl⟩, ?_⟩
  intro p _ now h
  cases h

end FinancialDashboard.Paisa
