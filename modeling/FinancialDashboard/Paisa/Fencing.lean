import FinancialDashboard.Paisa.Interleaving

/-!
# Stale runs and the include file

Every update of the row carries `WHERE lease_token = :token`, so a stale run
writes nothing on it (`stale_row_unchanged`).  `publish_journal` carries no token.
What keeps a stale run from the include file is only that its publish is behind
it: a run publishes once, and never comes back before that.

So the file is fenced from exactly the runs that had published, or were not going
to, when they lost the lease.  `SafeReclaim` leaves out the claims and resets that
take the lease from a run whose publish is still to come.

* `fenced_of_step`: one step keeps `Fenced`.
* `fenced_of_run`: a stale run touches neither the row nor the file.
* `stale_run_overwrites`: a run that lost the lease before its publish puts the
  earlier journal over the later one.
-/

namespace FinancialDashboard.Paisa.World

variable {Config Db : Type} {project : Config → Db → String} {sha256 : String → String}
  {w w' : World Config Db} {token : String} {r : Run Config} {action : Action}
  {e : Event Config Db}

/-- The run the row names has no publish before it. -/
def HolderPublished (w : World Config Db) : Prop :=
  ∀ token, token ∈ w.row.leaseToken → ∀ r, r ∈ w.runs token → r.phase.publishAhead = false

instance (w : World Config Db) : Decidable (HolderPublished w) :=
  inferInstanceAs (Decidable (∀ token, token ∈ w.row.leaseToken →
    ∀ r, r ∈ w.runs token → r.phase.publishAhead = false))

/-- The lease is claimed and reset only when the run that loses it has published. -/
def SafeReclaim (w : World Config Db) : Event Config Db → Prop
  | .reset _ | .act _ (.claim _ _ _) => HolderPublished w
  | _ => True

instance (w : World Config Db) (e : Event Config Db) : Decidable (SafeReclaim w e) := by
  cases e with
  | act token action =>
    cases action with
    | claim => exact inferInstanceAs (Decidable (HolderPublished w))
    | _ => exact .isTrue trivial
  | reset => exact inferInstanceAs (Decidable (HolderPublished w))
  | core | settings | forceReload | tick | request => exact .isTrue trivial

/-- A run that is under way and not named by the row has no publish before it. -/
def Fenced (w : World Config Db) : Prop :=
  ∀ token r, w.runs token = some r → r.phase.held = true → w.row.leaseToken ≠ some token →
    r.phase.publishAhead = false

/-! ### One step -/

/-- A run moved to a phase with no publish ahead unless it had one, and the row
names whom it named. -/
theorem fenced_of_move {q : Run Config} (h : Fenced w) (hrun : w.runs token = some r)
    (hheld : r.phase.held = true) (hruns : w'.runs = Function.update w.runs token (some q))
    (htoken : w'.row.leaseToken = w.row.leaseToken)
    (hq : q.phase.publishAhead = true → r.phase.publishAhead = true) : Fenced w' := by
  intro other p hp hother hstale
  rw [htoken] at hstale
  rw [hruns] at hp
  rcases runs_put_eq (w := w) (r := q) hp with ⟨rfl, rfl⟩ | ⟨_, hp⟩
  · have hbehind := h other r hrun hheld hstale
    by_contra hahead
    rw [hq (by simpa using hahead)] at hbehind
    cases hbehind
  · exact h other p hp hother hstale

/-- The lease is free or another's now: whoever held it has published. -/
theorem fenced_of_lost (h : Fenced w) (hholder : HolderPublished w) : ∀ token r,
    w.runs token = some r → r.phase.held = true → r.phase.publishAhead = false := by
  intro token r hrun hheld
  by_cases htoken : w.row.leaseToken = some token
  · exact hholder token htoken r hrun
  · exact h token r hrun hheld htoken

theorem fenced_of_rule (h : Fenced w) (hrun : w.runs token = some r)
    (hok : SafeReclaim w (.act token action)) (hrule : Rule project sha256 w token r action w') :
    Fenced w' := by
  cases hrule with
  | claim phase claimed =>
    obtain ⟨_, rfl⟩ := SyncState.claimLease_eq_some_iff.mp claimed
    intro other p hp hheld hstale
    rcases runs_put_eq (w := w) (r := { r with phase := .claimed }) hp with ⟨rfl, _⟩ | ⟨_, hp⟩
    · exact absurd rfl hstale
    · exact fenced_of_lost h hok other p hp hheld
  | load held => exact fenced_of_move h hrun held rfl rfl id
  | heartbeat ttl now held =>
    intro other p hp hheld hstale
    have same := (sameRevisions_heartbeat w.row token ttl now).1
    exact h other p hp hheld (same.token ▸ hstale)
  | capture phase =>
    exact fenced_of_move h hrun (by simp [phase, Phase.held]) rfl rfl
      fun _ => by simp [phase, Phase.publishAhead]
  | project phase =>
    have hboth : r.phase.held = true ∧ r.phase.publishAhead = true := by
      rcases phase with ⟨R, phase, _⟩ | ⟨phase, _⟩ <;>
        simp [phase, Phase.held, Phase.publishAhead]
    exact fenced_of_move h hrun hboth.1 rfl rfl fun _ => hboth.2
  | publish phase | skip phase | post phase | reject _ phase =>
    exact fenced_of_move h hrun (by simp [phase, Phase.held]) rfl rfl
      fun hahead => by cases hahead
  | toPost phase =>
    have hheld : r.phase.held = true := by
      rcases phase with phase | phase <;> simp [phase, Phase.held]
    exact fenced_of_move h hrun hheld rfl rfl fun hahead => by cases hahead
  | checkpoint phase holds same =>
    exact fenced_of_move h hrun (by simp [phase, Phase.held]) rfl same.token
      fun hahead => by cases hahead
  | note held unposted holds same =>
    exact fenced_of_move h hrun held rfl same.token fun hahead => by cases hahead
  | guard now phase holds =>
    have hheld : r.phase.held = true := by
      rcases phase with phase | ⟨R, phase⟩ <;> simp [phase, Phase.held]
    exact fenced_of_move h hrun hheld rfl rfl fun hahead => by cases hahead
  | noop phase holds =>
    exact fenced_of_move h hrun (by simp [phase, Phase.held]) rfl rfl
      fun hahead => by cases hahead
  | accept phase holds same hash next_eq =>
    refine fenced_of_move h hrun (by simp [phase, Phase.held]) rfl same.token fun hahead => ?_
    rcases next_eq with rfl | rfl <;> cases hahead
  | leave alive why =>
    intro other p hp hheld hstale
    rcases runs_put_eq (w := w) (r := { r with phase := .done }) hp with ⟨rfl, rfl⟩ | ⟨hne, hp⟩
    · cases hheld
    · -- the lease was this run's, or it stays whose it was
      refine h other p hp hheld fun htheirs => hstale ?_
      have hkept : w.row.releaseLease token = w.row := by
        refine SyncState.releaseLease_of_ne fun hmine => hne ?_
        exact Option.some.inj (htheirs.symm.trans hmine)
      change (w.row.releaseLease token).leaseToken = some other
      rw [hkept]
      exact htheirs

/-- **One step** keeps the stale runs behind their publish. -/
theorem fenced_of_step (h : Fenced w) (hok : SafeReclaim w e)
    (hstep : step project sha256 w e = some w') : Fenced w' := by
  cases e with
  | core | settings | forceReload =>
    cases hstep
    exact h
  | reset now =>
    cases hstep
    intro other p hp hheld _
    exact fenced_of_lost h hok other p hp hheld
  | tick token now =>
    simp only [step] at hstep
    split_ifs at hstep
    obtain ⟨force, _, rfl⟩ := Option.map_eq_some_iff.mp hstep
    intro other p hp hheld hstale
    rcases runs_put_eq hp with ⟨_, rfl⟩ | ⟨_, hp⟩
    · cases hheld
    · exact h other p hp hheld hstale
  | request token intent =>
    simp only [step] at hstep
    split_ifs at hstep
    cases hstep
    intro other p hp hheld hstale
    rcases runs_put_eq hp with ⟨_, rfl⟩ | ⟨_, hp⟩
    · cases hheld
    · exact h other p hp hheld hstale
  | act token action =>
    obtain ⟨r, hrun, hact⟩ := Option.bind_eq_some_iff.mp hstep
    exact fenced_of_rule h hrun hok (rule_of_act hact)

/-- A run with no publish ahead leaves the file alone. -/
theorem file_unchanged (hbehind : r.phase.publishAhead = false)
    (hrule : Rule project sha256 w token r action w') : w'.file = w.file := by
  cases hrule with
  | publish phase => simp [phase, Phase.publishAhead] at hbehind
  | _ => rfl

/-! ### Runs -/

/-- **Stale runs are fenced from the row and from the file**, in every run in
which the lease is only taken from runs that have published: whatever a stale run
does, both are as they were. -/
theorem fenced_of_run {config : Config} {db : Db} {file remote : Option String} {now : Int}
    (hrun : (interleaving project sha256).Run SafeReclaim (init config db file remote now) w)
    (hstale : Stale w token) (hstep : step project sha256 w (.act token action) = some w') :
    w'.row = w.row ∧ w'.file = w.file := by
  have hinit : Fenced (init config db file remote now : World Config Db) := by
    intro other p hp
    cases hp
  have hfenced : Fenced w :=
    hrun.invariant (fun s e t hs hok hst => fenced_of_step hs hok hst) hinit
  obtain ⟨r, hr, hheld, htoken⟩ := hstale
  obtain ⟨q, hq, hact⟩ := Option.bind_eq_some_iff.mp hstep
  obtain rfl := Option.some.inj (hr.symm.trans hq)
  have hrule := rule_of_act hact
  have hbehind := hfenced token r hr hheld htoken
  exact ⟨stale_row_unchanged hheld htoken hrule, file_unchanged hbehind hrule⟩

/-! ### The run that had not published -/

/-- The journal a run is going to publish. -/
def journalAhead (project : Config → Db → String) (w : World Config Db) (r : Run Config) : String :=
  match r.phase with
  | .projected _ journal => journal
  | _ => project r.config w.db

theorem exec_act {es : List (Event Config Db)} (hrun : w.runs token = some r)
    (hact : act project sha256 w token r action = some w') :
    (interleaving project sha256).exec w (.act token action :: es) =
      (interleaving project sha256).exec w' es := by
  have hstep : (interleaving project sha256).step w (.act token action) = some w' :=
    Option.bind_eq_some_iff.mpr ⟨r, hrun, hact⟩
  simp only [Transition.System.exec, hstep, Option.bind_some]

theorem publish_of_projected {target : Option Int} {journal : String}
    (hrun : w.runs token = some r) (hphase : r.phase = .projected target journal) :
    ∃ w', (interleaving project sha256).exec w [.act token .publish] = some w' ∧
      w'.file = some journal := by
  rw [exec_act hrun (by simp only [act, hphase]; rfl)]
  exact ⟨_, rfl, rfl⟩

theorem publish_of_captured {R : Int} (hrun : w.runs token = some r)
    (hphase : r.phase = .captured R) :
    ∃ w', (interleaving project sha256).exec w [.act token .project, .act token .publish] =
      some w' ∧ w'.file = some (project r.config w.db) := by
  rw [exec_act hrun (by simp only [act, hphase]; rfl)]
  exact publish_of_projected (put_runs_self ..) rfl

/-- **The condition is tight**: a run with its publish ahead of it gets there by
its own steps, whoever holds the lease, and the file is its journal then. -/
theorem publish_reached (hrun : w.runs token = some r) (hahead : r.phase.publishAhead = true) :
    ∃ (actions : List Action) (w' : World Config Db),
      (interleaving project sha256).exec w (actions.map (.act token)) = some w' ∧
        w'.file = some (journalAhead project w r) := by
  unfold journalAhead
  cases hphase : r.phase with
  | claimed =>
    cases hintent : r.intent with
    | automatic | manualSync =>
      refine ⟨[.capture, .project, .publish], ?_⟩
      have hact : act project sha256 w token r .capture =
          some (w.put token { r with phase := .captured w.row.captureTarget }) := by
        simp only [act, hphase, hintent]
      simp only [List.map]
      rw [exec_act hrun hact]
      exact publish_of_captured (r := { r with phase := .captured w.row.captureTarget })
        (put_runs_self ..) rfl
    | manualGenerate =>
      refine ⟨[.project, .publish], ?_⟩
      simp only [List.map]
      rw [exec_act hrun (by simp only [act, hphase, hintent]; rfl)]
      exact publish_of_projected (put_runs_self ..) rfl
  | captured R => exact ⟨[.project, .publish], publish_of_captured hrun hphase⟩
  | projected target journal => exact ⟨[.publish], publish_of_projected hrun hphase⟩
  | _ => simp [hphase, Phase.publishAhead] at hahead

/-- The dashboard whose journal is its database. -/
def plain : Transition.System (World Unit String) (Event Unit String) :=
  interleaving (fun _ db => db) id

/-- The run `a` reads "rent" and stalls past its lease; a commit adds "food", and
`b` takes the lease and publishes. -/
def takenOver : List (Event Unit String) :=
  [.tick "a" 10, .act "a" (.claim "coordinator" 90 20), .act "a" .capture, .act "a" .project,
    .core "rent, food" 30, .request "b" .manualSync, .act "b" (.claim "web" 90 200),
    .act "b" .load, .act "b" .capture, .act "b" .project, .act "b" .publish]

/-- What the claim is about: the token on the row, the file, and where `a` is. -/
def fenceView (w : World Unit String) : Option String × Option String × Option Phase :=
  (w.row.leaseToken, w.file, (w.runs "a").map (·.phase))

/-- **A stale run overwrites the later journal** with its earlier one. -/
theorem stale_run_overwrites : ∃ w w' : World Unit String,
    plain.Run Transition.System.always (init () "rent" none none 0) w ∧ Stale w "a" ∧
      plain.step w (.act "a" .publish) = some w' ∧
      w.file = some "rent, food" ∧ w'.file = some "rent" := by
  have hmeets : plain.Meets Transition.System.always (init () "rent" none none 0) takenOver :=
    Transition.System.meets_of_forall (p := fun _ => True) takenOver _ fun _ _ => trivial
  have hview : (plain.exec (init () "rent" none none 0) takenOver).map fenceView =
      some (some "b", some "rent, food", some (.projected (some 1) "rent")) := by decide
  obtain ⟨w, _, hrun, hw⟩ := Transition.System.run_of_view hmeets hview
  simp only [fenceView, Prod.mk.injEq, Option.map_eq_some_iff] at hw
  obtain ⟨htoken, hfile, r, hr, hphase⟩ := hw
  have hstale : Stale w "a" := ⟨r, hr, by rw [hphase]; rfl, by rw [htoken]; decide⟩
  have hact : act (fun _ db => db) id w "a" r .publish =
      some { w.put "a" { r with phase := .published (some 1) "rent" } with file := some "rent" } := by
    simp only [act, hphase]
  exact ⟨w, _, hrun, hstale, Option.bind_eq_some_iff.mpr ⟨r, hr, hact⟩, hfile, rfl⟩

/-- The same two runs where `a` had published before it stalled. -/
def takenOverLate : List (Event Unit String) :=
  [.tick "a" 10, .act "a" (.claim "coordinator" 90 20), .act "a" .capture, .act "a" .project,
    .act "a" .publish, .core "rent, food" 30, .request "b" .manualSync,
    .act "b" (.claim "web" 90 200), .act "b" .load, .act "b" .capture, .act "b" .project,
    .act "b" .publish]

theorem stale_run_fenced : ∃ w w' : World Unit String,
    plain.exec (init () "rent" none none 0) takenOverLate = some w ∧
      plain.step w (.act "a" (.heartbeat 90 300)) = some w' ∧ Stale w "a" ∧
      w'.row = w.row ∧ w'.file = w.file := by
  have hmeets : plain.Meets SafeReclaim (init () "rent" none none 0) takenOverLate := by decide
  have hview : (plain.exec (init () "rent" none none 0) takenOverLate).map fenceView =
      some (some "b", some "rent, food", some (.published (some 1) "rent")) := by decide
  obtain ⟨w, hexec, hrun, hw⟩ := Transition.System.run_of_view hmeets hview
  simp only [fenceView, Prod.mk.injEq, Option.map_eq_some_iff] at hw
  obtain ⟨htoken, _, r, hr, hphase⟩ := hw
  have hstale : Stale w "a" := ⟨r, hr, by rw [hphase]; rfl, by rw [htoken]; decide⟩
  -- a heartbeat of the stale run, which renews nothing
  have hact : act (fun _ db => db) id w "a" r (.heartbeat 90 300) =
      some { w with row := w.row.heartbeatLease "a" 90 300 } := by
    simp [act, hphase, Phase.held]
  have hstep : plain.step w (.act "a" (.heartbeat 90 300)) = some _ :=
    Option.bind_eq_some_iff.mpr ⟨r, hr, hact⟩
  exact ⟨w, _, hexec, hstep, hstale, fenced_of_run hrun hstale hstep⟩

end FinancialDashboard.Paisa.World
