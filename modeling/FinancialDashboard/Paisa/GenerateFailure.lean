import FinancialDashboard.Paisa.Throttle

/-!
# A refused generate and the dirty revision

When `generate` is refused, the coordinator decides by the words of the reason
whether the integration was merely not set up, and the revision is to be consumed,
or something failed, and the row is to stay dirty and back off.  The reason is
free text: it carries the messages of the publisher and of the projection, and
the operator's own path.

Past a preflight that went through, nothing that refuses is a matter of
configuration (`refusal_of_generate`), so every refusal is a failure, and one
whose reason happens to contain a guard word consumes the revision for good.  The
publisher's own messages about a bad path all do: they name `generated_path`.

* `guardOutcomeToken_eq_none_iff`: the words.
* `pathError_reads_as_guard`: every message of `_check_path` has one.
* `guarded_failure_consumes`: what such a failure does to the row.
* `refused_generate_keeps_iff`: exactly when a refused generate leaves the
  revision where it was, the row dirty, and the next attempt in the future.
-/

namespace FinancialDashboard.Paisa

open PyText

/-! ### The words of a reason -/

section Words

variable [UnicodeTables]

/-- The words `_guard_outcome_token` looks for. -/
def guardWords : List String :=
  ["disabled", "connect_only", "not_configured", "generated_path", "cutover", "selected account"]

/-- **A reason is read as a guard by its words alone.** -/
theorem guardOutcomeToken_eq_none_iff {reason : String} :
    guardOutcomeToken (some reason) = none ↔
      ∀ word ∈ guardWords, contains word (lower reason) = false := by
  simp only [guardOutcomeToken, guardWords, Option.getD_some, List.mem_cons, List.not_mem_nil,
    or_false, forall_eq_or_imp, forall_eq]
  by_cases h0 : lower reason = ""
  · simp only [h0, if_true]
    decide
  · rw [if_neg h0]
    split_ifs with h1 h2 h3
    · simp [h1]
    · simp [h2]
    · simp only [Bool.or_eq_true] at h3
      simp only [false_iff, not_and]
      intro _ _ n1 n2 n3 n4
      simp [n1, n2, n3, n4] at h3
    · simp only [Bool.or_eq_true, not_or, Bool.not_eq_true] at h1 h2 h3
      simp [h1, h2, h3]

/-- The fixed texts the publisher's path messages start with. -/
def pathMessageStarts : List String :=
  ["Paisa generated_path is not configured.", "Paisa generated_path must be absolute, got ",
    "Paisa generated_path must not traverse: ",
    "Paisa generated_path parent directory does not exist: "]

/-- A message that starts with one of those texts makes a reason that reads as a guard. -/
theorem guard_of_pathMessageStart {message : String} (start rest : String)
    (h : start ∈ pathMessageStarts) (hm : message = start ++ rest) :
    guardOutcomeToken (some (publishFailedReason message)) ≠ none := by
  intro hnone
  rw [hm] at hnone
  have hword := guardOutcomeToken_eq_none_iff.mp hnone "generated_path" (by decide)
  have hreason : contains "generated_path" (lower (publishFailedReason (start ++ rest))) = true := by
    have hascii : ∀ t ∈ pathMessageStarts, t.toList.all (·.val < 128) = true := by
      decide +kernel
    have hword : ∀ t ∈ pathMessageStarts,
        contains "generated_path" (String.ofList (t.toList.map Char.toLower)) = true := by
      decide +kernel
    have hstartAscii : ∀ c ∈ start.toList, c.val < 128 := fun c hc =>
      of_decide_eq_true (List.all_eq_true.mp (hascii start h) c hc)
    have hpart : contains start (publishFailedReason (start ++ rest)) = true :=
      contains_append_right "publish_failed: "
        (contains_append_left rest (contains_iff.mpr (List.infix_refl _)))
    exact contains_lower_of_ascii hstartAscii hpart (hword start h)
  rw [hreason] at hword
  cases hword

/-- **Every message of `_check_path` reads as a guard**, whatever the path. -/
theorem pathError_reads_as_guard {fs : FileSystem} {path message : String}
    (h : checkPath fs path = .error (.publishError message)) :
    guardOutcomeToken (some (publishFailedReason message)) ≠ none := by
  unfold checkPath at h
  by_cases hblank : strip path = ""
  · rw [if_pos hblank] at h
    cases h
    exact guard_of_pathMessageStart "Paisa generated_path is not configured." "" (by decide) rfl
  · rw [if_neg hblank] at h
    rcases hx : fs.expanduser path with text | expanded
    · simp only [hx] at h
      cases h
    · simp only [hx, pure_bind] at h
      by_cases habs : (Path.ofString expanded).isAbsolute = true
      · simp only [habs, Bool.not_true, Bool.false_eq_true, if_false] at h
        by_cases hdots : ".." ∈ (Path.ofString expanded).parts
        · rw [if_pos hdots] at h
          cases h
          exact guard_of_pathMessageStart "Paisa generated_path must not traverse: " _ (by decide)
            (String.append_assoc ..)
        · rw [if_neg hdots] at h
          by_cases hdir : fs.isDir (Path.ofString expanded).parent = true
          · simp only [hdir, Bool.not_true, Bool.false_eq_true, if_false] at h
            cases h
          · simp only [hdir, Bool.not_false, if_true] at h
            cases h
            exact guard_of_pathMessageStart
              "Paisa generated_path parent directory does not exist: " _ (by decide)
              (String.append_assoc ..)
      · simp only [habs, Bool.not_false, if_true] at h
        cases h
        exact guard_of_pathMessageStart "Paisa generated_path must be absolute, got " _ (by decide)
          (String.append_assoc ..)

end Words

/-! ### What the others' transactions leave alone -/

namespace SyncState

variable {s : SyncState} {token : String} {ttl : Int}

theorem commit_appliedRevision (s : SyncState) (c : Commit) :
    (s.commit token ttl c).appliedRevision = s.appliedRevision := by
  cases c with
  | heartbeat t =>
    simp only [commit, heartbeatLease]
    split_ifs <;> rfl
  | core | settings | forceReload | reclaimed => rfl

theorem desiredRevision_le_commit (s : SyncState) (c : Commit) :
    s.desiredRevision ≤ (s.commit token ttl c).desiredRevision := by
  cases c with
  | core | settings =>
    simp only [commit, bumpSettings, bumpCore]
    omega
  | heartbeat t =>
    simp only [commit, heartbeatLease]
    split_ifs <;> simp
  | forceReload | reclaimed => exact Int.le_refl _

/-- Only a peer's claim moves the token. -/
theorem commit_leaseToken (s : SyncState) (c : Commit) :
    (s.commit token ttl c).leaseToken = s.leaseToken ∨
      ∃ owner peer expiresAt, c = .reclaimed owner peer expiresAt ∧
        (s.commit token ttl c).leaseToken = some peer := by
  cases c with
  | heartbeat t =>
    simp only [commit, heartbeatLease]
    split_ifs <;> exact .inl rfl
  | reclaimed owner peer expiresAt => exact .inr ⟨owner, peer, expiresAt, rfl, rfl⟩
  | core | settings | forceReload => exact .inl rfl

end SyncState

namespace Env

variable (env : Env) (p : Point) {s : SyncState}

/-- No peer's claim goes through at these points. -/
def KeepsLease (ps : List Point) : Prop :=
  ∀ p ∈ ps, ∀ owner peer expiresAt, Commit.reclaimed owner peer expiresAt ∉ env.commits p

theorem settled_appliedRevision : (env.settled p s).appliedRevision = s.appliedRevision :=
  env.settled_induction p (P := fun t => t.appliedRevision = s.appliedRevision) rfl
    fun t c _ ht => (t.commit_appliedRevision c).trans ht

theorem desiredRevision_le_settled : s.desiredRevision ≤ (env.settled p s).desiredRevision :=
  env.settled_induction p (P := fun t => s.desiredRevision ≤ t.desiredRevision) (Int.le_refl _)
    fun t c _ ht => Int.le_trans ht (t.desiredRevision_le_commit c)

/-- A lease lost is not got back: peers' tokens are their own. -/
theorem commit_lost {t : SyncState} {c : Commit} (hc : c ∈ env.commits p)
    (ht : t.leaseToken ≠ some env.token) :
    (t.commit env.token env.leaseTtl c).leaseToken ≠ some env.token := by
  rcases t.commit_leaseToken c with hk | ⟨owner, peer, expiresAt, rfl, hk⟩
  · rw [hk]
    exact ht
  · rw [hk]
    intro he
    rw [Option.some.inj he] at hc
    exact env.reclaimed_fresh p owner expiresAt hc

theorem settled_held_iff :
    (env.settled p s).leaseToken = some env.token ↔
      s.leaseToken = some env.token ∧ env.KeepsLease [p] := by
  constructor
  · intro h
    refine ⟨by_contra fun hs => ?_, ?_⟩
    · exact env.settled_induction p (P := fun t => t.leaseToken ≠ some env.token) hs
        (fun _ _ hc => env.commit_lost p hc) h
    · intro q hq owner peer expiresAt hmem
      obtain rfl : q = p := by simpa using hq
      refine env.settled_of_mem q (P := fun t => t.leaseToken ≠ some env.token) hmem
        (fun t ht => ?_) (fun _ _ hc => env.commit_lost q hc) s h
      exact env.reclaimed_fresh q owner expiresAt (Option.some.inj ht ▸ hmem)
  · rintro ⟨hs, hk⟩
    refine env.settled_induction p (P := fun t => t.leaseToken = some env.token) hs
      fun t c hc ht => ?_
    rcases t.commit_leaseToken c with hk' | ⟨owner, peer, expiresAt, rfl, _⟩
    · exact hk'.trans ht
    · exact absurd hc (hk p (by simp) owner peer expiresAt)

end Env

/-! ### The refused generate -/

section

variable [UnicodeTables] {env : Env} {s t : SyncState} {pre : PreflightReport}
  {generated : GenerateResult} {forceRemote : Bool}

/-- The points an attempt passes before it records a refused generate. -/
def toGenerate : List Point := [.lastRun, .client, .preflight, .captureTarget, .generate]

omit [UnicodeTables] in
/-- The row as a refused generate finds it when it comes to be recorded. -/
def Env.settledToRecord (env : Env) (s : SyncState) : SyncState :=
  env.settled .record (env.settled .generate (env.settled .captureTarget
    (env.settled .preflight (env.settled .client s))))

/-- Up to a refused generate the attempt is a straight line. -/
theorem run_of_refused {guardTarget : Int} (hclear : env.Clear toGenerate)
    (hpre : env.preflight = .ok pre) (hok : pre.ok = true) (hgen : env.generate = .ok generated)
    (hno : generated.ok = false) :
    (runAttemptStages env forceRemote guardTarget).run s =
      (recordGenerateOutcome env generated guardTarget).run (env.settled .generate
        (env.settled .captureTarget (env.settled .preflight (env.settled .client s)))) := by
  have hcomplete : generated.complete = none := by simp [GenerateResult.complete, hno]
  unfold runAttemptStages
  rw [reach_go _ (hclear .client (by decide)), reach_go _ (hclear .preflight (by decide)), hpre,
    ofExcept_ok]
  simp only [hok, Bool.not_true, Bool.false_eq_true, if_false]
  rw [reach_go _ (hclear .captureTarget (by decide)), get_go,
    reach_go _ (hclear .generate (by decide)), hgen, ofExcept_ok, hcomplete]

omit [UnicodeTables] in
theorem settledToRecord_appliedRevision :
    (env.settledToRecord s).appliedRevision = s.appliedRevision := by
  simp only [Env.settledToRecord, Env.settled_appliedRevision]

omit [UnicodeTables] in
theorem desiredRevision_le_settledToRecord :
    s.desiredRevision ≤ (env.settledToRecord s).desiredRevision :=
  calc s.desiredRevision
      ≤ (env.settled .client s).desiredRevision := env.desiredRevision_le_settled _
    _ ≤ (env.settled .preflight (env.settled .client s)).desiredRevision :=
        env.desiredRevision_le_settled _
    _ ≤ (env.settled .captureTarget _).desiredRevision := env.desiredRevision_le_settled _
    _ ≤ (env.settled .generate _).desiredRevision := env.desiredRevision_le_settled _
    _ ≤ (env.settledToRecord s).desiredRevision := env.desiredRevision_le_settled _

/-- What a failed generate owes: the revision is not consumed, the row stays
dirty, and the next attempt is put into the future. -/
def KeepsRevision (env : Env) (s t : SyncState) : Prop :=
  t.appliedRevision = s.appliedRevision ∧ t.appliedRevision < t.desiredRevision ∧
    ∃ next, t.nextAttemptAt = some next ∧ env.stageNow < next

omit [UnicodeTables] in
/-- A row that is not backed off has no attempt in the future. -/
theorem not_keepsRevision_of_quiet (h : t.Quiet env.stageNow) : ¬ KeepsRevision env s t := by
  rintro ⟨_, _, w, hw, hlt⟩
  have := h w hw
  omega

omit [UnicodeTables] in
theorem settledToRecord_held_iff (hs : s.leaseToken = some env.token) :
    (env.settledToRecord (env.settled .lastRun s)).leaseToken = some env.token ↔
      env.KeepsLease (toGenerate ++ [.record]) := by
  simp only [Env.settledToRecord, Env.settled_held_iff, hs, true_and]
  simp only [Env.KeepsLease, toGenerate, List.cons_append, List.nil_append, List.forall_mem_cons,
    List.not_mem_nil, false_implies, implies_true, and_true, and_assoc]

omit [UnicodeTables] in
theorem settledToRecord_quiet {now : Int} (h : s.Quiet now) : (env.settledToRecord s).Quiet now :=
  env.settled_quiet _ (env.settled_quiet _ (env.settled_quiet _ (env.settled_quiet _
    (env.settled_quiet _ h))))

omit [UnicodeTables] in
theorem released_revisions (env : Env) (s : SyncState) :
    (env.released s).appliedRevision = s.appliedRevision ∧
      s.desiredRevision ≤ (env.released s).desiredRevision := by
  have hrel : ∀ u : SyncState, (u.releaseLease env.token).appliedRevision = u.appliedRevision ∧
      (u.releaseLease env.token).desiredRevision = u.desiredRevision := by
    intro u
    simp only [SyncState.releaseLease]
    split_ifs <;> exact ⟨rfl, rfl⟩
  unfold Env.released
  rw [(hrel _).1, (hrel _).2]
  exact ⟨env.settled_appliedRevision _, env.desiredRevision_le_settled _⟩

omit [UnicodeTables] in
/-- Once the failure is recorded, only a settings change can spoil it. -/
theorem keepsRevision_of_recorded {u v : SyncState} (hdirty : s.appliedRevision < s.desiredRevision)
    (happ : v.appliedRevision = s.appliedRevision) (hdes : s.desiredRevision ≤ v.desiredRevision)
    (hu : u = { SyncState.armBackoff env.stageNow v with
      lastRemoteAttemptAt := some env.stageNow }) :
    KeepsRevision env s (env.released (env.settled .close u)) ↔
      env.NoSettings [.close, .release] := by
  have hrow := released_revisions env (env.settled .close u)
  have hclose : (env.settled .close u).appliedRevision = u.appliedRevision ∧
      u.desiredRevision ≤ (env.settled .close u).desiredRevision :=
    ⟨env.settled_appliedRevision _, env.desiredRevision_le_settled _⟩
  have happ : u.appliedRevision = v.appliedRevision := by rw [hu]; rfl
  have hdesu : u.desiredRevision = v.desiredRevision := by rw [hu]; rfl
  have hback : u.BackedOff (env.stageNow + firstBackoff) := by
    rw [hu]
    have := firstBackoff_le v.failureCount
    exact ⟨_, rfl, by omega⟩
  have hpos : (0 : Int) < firstBackoff := by decide
  constructor
  · rintro ⟨_, _, w, hw, hlt⟩ p hp now hmem
    rw [released_nextAttemptAt] at hw
    simp only [List.mem_cons, List.not_mem_nil, or_false] at hp
    rcases hp with rfl | rfl
    · have hnone := env.settled_cleared .close hmem u
      have hq : (env.settled .release (env.settled .close u)).Quiet env.stageNow :=
        env.settled_quiet _ (by simp [SyncState.Quiet, hnone])
      have := hq w hw
      omega
    · rw [env.settled_cleared .release hmem] at hw
      cases hw
  · intro hset
    refine ⟨by omega, by omega, ?_⟩
    have hclose := env.settled_backedOff .close (fun p hp => hset p (by simp_all)) hback
    obtain ⟨w, hw, hle⟩ := @released_backedOff env _ _ (fun p hp => hset p (by simp_all)) hclose
    exact ⟨w, hw, by omega⟩

/-- **When a refused generate keeps the revision**, at the seams: its reason has
no guard word, the attempt gets to record it under its lease, and no settings
change commits after that. -/
theorem keepsRevision_iff_of_refused {r : Option AttemptResult}
    (hdirty : s.appliedRevision < s.desiredRevision) (hrun : tick env s = some (r, t))
    (hclear : env.Clear toGenerate) (hpre : env.preflight = .ok pre) (hok : pre.ok = true)
    (hgen : env.generate = .ok generated) (hno : generated.ok = false) :
    KeepsRevision env s t ↔ guardOutcomeToken generated.reason = none ∧
      env.interrupt .record = none ∧ env.KeepsLease (toGenerate ++ [.record]) ∧
      env.NoSettings [.close, .release] := by
  obtain ⟨forceRemote, hgate, hatt⟩ := Option.bind_eq_some_iff.mp hrun
  obtain ⟨c, hclaim, hend⟩ := attempt_cases hatt
  obtain ⟨_, hc⟩ := SyncState.claimLease_eq_some_iff.mp hclaim
  have htoken : c.leaseToken = some env.token := by rw [hc]
  have hquiet : c.Quiet env.stageNow := by
    have hq : (env.settled .claim s).Quiet env.claimNow :=
      env.settled_quiet _ (quiet_of_tickGate hgate)
    rw [hc]
    intro w hw
    have := hq w hw
    have := env.claim_le_stage
    omega
  -- the row as it comes to be recorded
  have hq : (env.settledToRecord (env.settled .lastRun c)).Quiet env.stageNow :=
    settledToRecord_quiet (env.settled_quiet _ hquiet)
  have happ : (env.settledToRecord (env.settled .lastRun c)).appliedRevision =
      s.appliedRevision := by
    rw [settledToRecord_appliedRevision, env.settled_appliedRevision, hc]
    exact env.settled_appliedRevision _
  have hdes : s.desiredRevision ≤
      (env.settledToRecord (env.settled .lastRun c)).desiredRevision := by
    have h1 : s.desiredRevision ≤ c.desiredRevision := by
      rw [hc]
      exact env.desiredRevision_le_settled _
    have h2 := env.desiredRevision_le_settled .lastRun (s := c)
    have h3 : (env.settled .lastRun c).desiredRevision ≤
        (env.settledToRecord (env.settled .lastRun c)).desiredRevision :=
      desiredRevision_le_settledToRecord
    omega
  rcases hend with ⟨i, hl, _⟩ | ⟨_, hstages⟩
  · rw [hclear .lastRun (by decide)] at hl
    cases hl
  rw [run_of_refused hclear hpre hok hgen hno] at hstages
  -- a program that leaves the row quiet leaves nothing in the future
  have dead : (rowOf ((recordGenerateOutcome env generated s.desiredRevision).run
      (env.settled .generate (env.settled .captureTarget (env.settled .preflight
        (env.settled .client (env.settled .lastRun c))))))).Quiet env.stageNow →
      ¬ KeepsRevision env s t := by
    intro hrow
    refine not_keepsRevision_of_quiet ?_
    rcases hstages with ⟨e, u, hx, _, rfl⟩ | ⟨r', u, hx, rfl, _⟩
    · rw [hx] at hrow
      exact released_quiet hrow
    · rw [hx] at hrow
      exact released_quiet (env.settled_quiet _ hrow)
  unfold recordGenerateOutcome at hstages dead
  cases hr : env.interrupt .record with
  | some i =>
    rw [reach_stop _ hr] at dead
    exact iff_of_false (dead hq) (by simp)
  | none =>
    rw [reach_go _ hr] at hstages dead
    cases hg : guardOutcomeToken generated.reason with
    | some guard =>
      simp only [hg] at dead
      exact iff_of_false (dead (quiet_of_write hq (fun _ => .inl rfl) fun _ ht => ht)) (by simp)
    | none =>
      simp only [hg] at hstages dead
      by_cases hheld : (env.settledToRecord (env.settled .lastRun c)).leaseToken = some env.token
      · have hkeeps := (settledToRecord_held_iff htoken).mp hheld
        rw [write_go _ (SyncState.guarded_of_eq hheld)] at hstages
        rcases hstages with ⟨_, _, hx, _⟩ | ⟨r', u, hx, rfl, _⟩
        · cases hx
        · cases hx
          rw [keepsRevision_of_recorded hdirty happ hdes rfl]
          simp [hkeeps]
      · have hlost := fun hk => hheld ((settledToRecord_held_iff htoken).mpr hk)
        rw [write_stale _ (SyncState.guarded_of_ne hheld)] at dead
        exact iff_of_false (dead hq) fun h => hlost h.2.2.1

/-- **A refusal that reads as a guard consumes the revision**: everything up to
the revision the tick saw counts as applied, though nothing was published. -/
theorem guarded_failure_consumes {r : Option AttemptResult} {guard : SyncOutcome}
    (hrun : tick env s = some (r, t)) (hclear : env.Clear toGenerate)
    (hpre : env.preflight = .ok pre) (hok : pre.ok = true) (hgen : env.generate = .ok generated)
    (hno : generated.ok = false) (hguard : guardOutcomeToken generated.reason = some guard)
    (hrec : env.interrupt .record = none) (hlease : env.KeepsLease (toGenerate ++ [.record])) :
    t.appliedRevision = s.desiredRevision := by
  obtain ⟨forceRemote, _, hatt⟩ := Option.bind_eq_some_iff.mp hrun
  obtain ⟨c, hclaim, hend⟩ := attempt_cases hatt
  obtain ⟨_, hc⟩ := SyncState.claimLease_eq_some_iff.mp hclaim
  have htoken : c.leaseToken = some env.token := by rw [hc]
  have hdes : s.desiredRevision ≤
      (env.settledToRecord (env.settled .lastRun c)).desiredRevision := by
    have h1 : s.desiredRevision ≤ c.desiredRevision := by
      rw [hc]
      exact env.desiredRevision_le_settled _
    have h2 := env.desiredRevision_le_settled .lastRun (s := c)
    have h3 : (env.settled .lastRun c).desiredRevision ≤
        (env.settledToRecord (env.settled .lastRun c)).desiredRevision :=
      desiredRevision_le_settledToRecord
    omega
  rcases hend with ⟨i, hl, _⟩ | ⟨_, hstages⟩
  · rw [hclear .lastRun (by decide)] at hl
    cases hl
  rw [run_of_refused hclear hpre hok hgen hno] at hstages
  unfold recordGenerateOutcome at hstages
  rw [reach_go _ hrec, hguard] at hstages
  have hheld := (settledToRecord_held_iff htoken).mpr hlease
  dsimp only at hstages
  simp only [SyncState.recordGuardCaughtUp_eq] at hstages
  rw [write_go _ (SyncState.guarded_of_eq hheld)] at hstages
  rcases hstages with ⟨_, _, hx, _⟩ | ⟨r', u, hx, rfl, _⟩
  · cases hx
  · cases hx
    rw [(released_revisions env _).1, env.settled_appliedRevision]
    rw [SyncState.catchUp_appliedRevision]
    exact Int.min_eq_left hdes

/-- **When a failed generate keeps the dirty revision.**  With the orchestrator's
own stages, past a preflight that went through: the reason `generate` gives has
no guard word, the attempt gets to record it under its lease, and no settings
change commits after that. -/
theorem refused_generate_keeps_iff {config : ProjectionConfig} {services : Services}
    {r : Option AttemptResult} {bytes : Option Bytes}
    (hdirty : s.appliedRevision < s.desiredRevision)
    (hrun : tick (env.withServices config services) s = some (r, t))
    (hclear : env.Clear toGenerate) (hpre : preflight config services.client = .ok pre)
    (hok : pre.ok = true)
    (hgen : generate config services.project services.fs services.sha256 =
      .ok (generated, bytes))
    (hno : generated.ok = false) :
    KeepsRevision env s t ↔ guardOutcomeToken generated.reason = none ∧
      env.interrupt .record = none ∧ env.KeepsLease (toGenerate ++ [.record]) ∧
      env.NoSettings [.close, .release] := by
  have hgenerate : (env.withServices config services).generate = .ok generated := by
    simp [Env.withServices, hgen, Except.map]
  have hkeeps := keepsRevision_iff_of_refused hdirty hrun hclear hpre hok hgenerate hno
  exact hkeeps

end

/-! ### A missing directory -/

/-- A configuration that has everything. -/
def readyConfig : ProjectionConfig where
  mode := .project
  generatedPath := "/srv/paisa/gen.ledger"
  selectedAccountIds := [1]
  cutoverDate := some 0
  ledgerCli := "ledger"

/-- A Paisa that answers well, and a target directory that is not there. -/
def missingDirectory : Services where
  client :=
    { fetchConfig := .ok ⟨some "ledger", false⟩
      syncJournal := .ok ⟨true, 200, none⟩
      diagnosis := fun _ => .ok ⟨0, 0, 0, none⟩ }
  project := .ok ⟨"", 0, 0⟩
  fs :=
    { expanduser := .ok
      isDir := fun _ => false
      read := fun _ => .absent
      writeError := fun _ => none }
  sha256 := id

/-- What `generate` answers there. -/
def missingDirectoryRefusal : GenerateResult where
  ok := false
  report := some ⟨"", 0, 0⟩
  publish := none
  reason := some ("publish_failed: Paisa generated_path parent directory does not exist: " ++
    "PosixPath('/srv/paisa').")

/-- **A missing directory consumes the revision**: generate fails on a dirty row,
nothing is published, and the row is clean. -/
theorem missing_directory_consumes :
    @preflight asciiTables readyConfig missingDirectory.client = .ok ⟨true, none, none⟩ ∧
    @generate asciiTables readyConfig missingDirectory.project missingDirectory.fs
      missingDirectory.sha256 = .ok (missingDirectoryRefusal, none) ∧
    ∃ r t, @tick asciiTables (@Env.withServices asciiTables calmEnv readyConfig missingDirectory)
      (SyncState.seed 0) = some (r, t) ∧
    t.appliedRevision = t.desiredRevision ∧ t.nextAttemptAt = none ∧
    ¬ KeepsRevision calmEnv (SyncState.seed 0) t := by
  refine ⟨rfl, rfl, some ⟨.skipped, .sync .notConfigured, none, none,
    .refused missingDirectoryRefusal.reason .generate, none, false⟩,
    { SyncState.seed 0 with
      appliedRevision := 1, firstDirtyAt := none, lastDirtyAt := none, forceReload := false },
    by decide +kernel, rfl, rfl, ?_⟩
  rintro ⟨h, _⟩
  cases h

/-- The same, but the projection fails, for a reason of its own. -/
def projectionFails : Services :=
  { missingDirectory with project := .error (.projectionError "bad row") }

theorem projection_failure_keeps : ∃ r t,
    @tick asciiTables (@Env.withServices asciiTables calmEnv readyConfig projectionFails)
      (SyncState.seed 0) = some (r, t) ∧ KeepsRevision calmEnv (SyncState.seed 0) t := by
  refine ⟨_, _, rfl, ?_⟩
  refine (@refused_generate_keeps_iff asciiTables calmEnv (SyncState.seed 0) _ ⟨true, none, none⟩
    ⟨false, none, none, some "bad row"⟩ readyConfig projectionFails _ none (by decide) rfl
    (fun _ _ => rfl) rfl rfl rfl rfl).mpr ?_
  refine ⟨by decide, rfl, ?_, ?_⟩
  · intro p _ owner peer expiresAt h
    cases h
  · intro p _ now h
    cases h

end FinancialDashboard.Paisa
