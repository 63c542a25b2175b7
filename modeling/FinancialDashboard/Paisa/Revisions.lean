import FinancialDashboard.Paisa.Interleaving
import Mathlib.Data.Int.Order.Basic

/-!
# The revisions of the row

`0 ≤ applied ≤ desired`, `applied` never goes back, and a dirty row has its dirty
window stamped.  A completion writes `applied := min target desired`, with a
target read earlier; so what is needed is that the target is not behind
`applied` by then.

For a run that captured its target under the lease it is not: while its token is
the row's, nobody else completes.  For a guard it can be: its target is the
revision the tick read *before* the claim, and another run may have completed in
between.  `GuardsAhead` leaves out the guard completions for which that happened.

* `revised_of_step`: one step keeps `Revised`, the invariant.
* `revisions_of_run`: so in every run whose guards are ahead the three hold of
  every state, and `applied` does not go back between any two.
* `late_guard_takes_back`: a run with a guard that is not.
-/

namespace FinancialDashboard.Paisa

namespace Phase

/-- The captured revision a completion is going to write. -/
def target : Phase → Option Int
  | captured R | checkpointed R _ | skipping R _ | posting R _ | posted R _ => some R
  | projected t _ | published t _ => t
  | _ => none

end Phase

namespace World

variable {Config Db : Type} {project : Config → Db → String} {sha256 : String → String}
  {w w' : World Config Db} {token : String} {r : Run Config} {action : Action}
  {e : Event Config Db}

/-- Every guard completes with a target the row has not passed; and no reset. -/
def GuardsAhead (w : World Config Db) : Event Config Db → Prop
  | .reset _ => False
  | .act token (.guard _) => ∀ r, w.runs token = some r → w.row.leaseToken = some token →
      w.row.appliedRevision ≤ r.guardTarget
  | _ => True

/-- The three facts about the row, and what carries them: the run that holds the
row's token captured a revision the row has not passed. -/
structure Revised (w : World Config Db) : Prop where
  nonneg : 0 ≤ w.row.appliedRevision
  le : w.row.appliedRevision ≤ w.row.desiredRevision
  stamped : w.row.appliedRevision < w.row.desiredRevision →
    w.row.firstDirtyAt.isSome ∧ w.row.lastDirtyAt.isSome
  ahead : ∀ token r, w.runs token = some r → w.row.leaseToken = some token →
    ∀ R ∈ r.phase.target, w.row.appliedRevision ≤ R

/-! ### The row -/

/-- What `Revised` says of the row alone. -/
def RowRevised (s : SyncState) : Prop :=
  0 ≤ s.appliedRevision ∧ s.appliedRevision ≤ s.desiredRevision ∧
    (s.appliedRevision < s.desiredRevision → s.firstDirtyAt.isSome ∧ s.lastDirtyAt.isSome)

theorem rowRevised_of_same {s t : SyncState} (h : s.SameRevisions t) (hs : RowRevised s) :
    RowRevised t := by
  obtain ⟨h0, hle, hst⟩ := hs
  refine ⟨?_, ?_, ?_⟩
  · rw [h.applied]
    exact h0
  · rw [h.applied, h.desired]
    exact hle
  · rw [h.applied, h.desired, h.firstDirty, h.lastDirty]
    exact hst

/-- **A completion with a target that is not behind** keeps the row revised and
does not take `applied` back. -/
theorem rowRevised_catchUp {s : SyncState} {target : Int} (hs : RowRevised s)
    (ht : s.appliedRevision ≤ target) :
    RowRevised (SyncState.catchUp target s) ∧
      s.appliedRevision ≤ (SyncState.catchUp target s).appliedRevision := by
  obtain ⟨h0, hle, hst⟩ := hs
  have happ := SyncState.catchUp_appliedRevision target s
  refine ⟨⟨by omega, ?_, fun hlt => ?_⟩, by omega⟩
  · rw [happ, SyncState.catchUp_desiredRevision]
    omega
  · rw [happ, SyncState.catchUp_desiredRevision] at hlt
    have hbehind : ¬ s.desiredRevision ≤ target := by omega
    simp only [SyncState.catchUp, if_neg hbehind]
    exact hst (by omega)

theorem rowRevised_bumpCore {s : SyncState} (hs : RowRevised s) (now : Int) :
    RowRevised (s.bumpCore now) := by
  obtain ⟨h0, hle, _⟩ := hs
  exact ⟨h0, by simp only [SyncState.bumpCore]; omega, fun _ => ⟨rfl, rfl⟩⟩

theorem Revised.row (h : Revised w) : RowRevised w.row := ⟨h.nonneg, h.le, h.stamped⟩

/-- To keep `Revised` it is enough to keep the row, and to be ahead. -/
theorem revised_of_row (h : RowRevised w.row)
    (ahead : ∀ token r, w.runs token = some r → w.row.leaseToken = some token →
      ∀ R ∈ r.phase.target, w.row.appliedRevision ≤ R) : Revised w :=
  ⟨h.1, h.2.1, h.2.2, ahead⟩

/-- The run moved to a phase that is ahead, on a row whose revisions are the same. -/
theorem revised_put {row : SyncState} {q : Run Config} (h : Revised w)
    (same : w.row.SameRevisions row)
    (hq : w.row.leaseToken = some token → ∀ R ∈ q.phase.target, w.row.appliedRevision ≤ R) :
    Revised { w.put token q with row } := by
  refine revised_of_row (rowRevised_of_same same h.row) ?_
  intro other p hp htok R hR
  change row.leaseToken = some other at htok
  change row.appliedRevision ≤ R
  rw [same.token] at htok
  rw [same.applied]
  rcases runs_put_eq (w := w) (r := q) hp with ⟨rfl, rfl⟩ | ⟨_, hp⟩
  · exact hq htok R hR
  · exact h.ahead other p hp htok R hR

/-- A completion by the holder, which is then past its target. -/
theorem revised_recorded {row : SyncState} {target : Int} {next : Phase} (h : Revised w)
    (holds : w.row.leaseToken = some token) (ht : w.row.appliedRevision ≤ target)
    (same : (SyncState.catchUp target w.row).SameRevisions row) (hnext : next.target = none) :
    Revised (w.recorded token r row next) ∧ w.row.appliedRevision ≤ row.appliedRevision := by
  obtain ⟨hrow, hmono⟩ := rowRevised_catchUp h.row ht
  refine ⟨revised_of_row (rowRevised_of_same same hrow) ?_, by rw [same.applied]; exact hmono⟩
  intro other p hp htok R hR
  change row.leaseToken = some other at htok
  rw [same.token, SyncState.catchUp_leaseToken, holds] at htok
  obtain rfl := Option.some.inj htok
  rcases runs_put_eq (w := w) (r := { r with phase := next }) hp with ⟨_, rfl⟩ | ⟨hne, _⟩
  · rw [hnext] at hR
    cases hR
  · exact absurd rfl hne

/-- `Revised` looks at the row and the runs only. -/
theorem Revised.congr {v : World Config Db} (h : Revised w) (hrow : v.row = w.row)
    (hruns : v.runs = w.runs) : Revised v := by
  refine revised_of_row (hrow ▸ h.row) ?_
  rw [hrow, hruns]
  exact h.ahead

/-! ### One step -/

theorem revised_leave (h : Revised w) : Revised (w.leave token r) := by
  by_cases holds : w.row.leaseToken = some token
  · have hrow : (w.leave token r).row =
        { w.row with leaseOwner := none, leaseToken := none, leaseExpiresAt := none } :=
      if_pos holds
    refine revised_of_row ?_ ?_
    · rw [hrow]
      exact h.row
    · rw [hrow]
      intro other p _ htok
      cases htok
  · have hrow : (w.leave token r).row = w.row := SyncState.releaseLease_of_ne holds
    have hput : Revised (w.put token { r with phase := .done }) :=
      revised_put h (sameRevisions_refl _) fun _ R hR => by cases hR
    exact hput.congr hrow rfl

/-- **One action of a run** keeps the invariant and does not take `applied` back,
where a guard completes ahead. -/
theorem revised_of_rule (h : Revised w) (hrun : w.runs token = some r)
    (hok : GuardsAhead w (.act token action)) (hrule : Rule project sha256 w token r action w') :
    Revised w' ∧ w.row.appliedRevision ≤ w'.row.appliedRevision := by
  -- an action that writes no row and leaves the run with a target it already had, or none
  have moved : ∀ q : Run Config, (∀ R ∈ q.phase.target, R ∈ r.phase.target) →
      Revised (w.put token q) := fun q hq =>
    revised_put h (sameRevisions_refl _) fun htok R hR => h.ahead token r hrun htok R (hq R hR)
  cases hrule with
  | claim phase claimed =>
    obtain ⟨_, rfl⟩ := SyncState.claimLease_eq_some_iff.mp claimed
    refine ⟨revised_of_row h.row ?_, Int.le_refl _⟩
    intro other p hp htok R hR
    obtain rfl : token = other := Option.some.inj htok
    rcases runs_put_eq (w := w) hp with ⟨_, rfl⟩ | ⟨hne, _⟩
    · cases hR
    · exact absurd rfl hne
  | load held => exact ⟨moved _ fun R hR => hR, Int.le_refl _⟩
  | heartbeat ttl now held =>
    have same := (sameRevisions_heartbeat w.row token ttl now).1
    refine ⟨revised_of_row (rowRevised_of_same same h.row) ?_, same.applied ▸ Int.le_refl _⟩
    rw [same.token, same.applied]
    exact h.ahead
  | capture phase =>
    refine ⟨revised_put h (sameRevisions_refl _) fun _ R hR => ?_, Int.le_refl _⟩
    cases hR
    exact h.le
  | project phase =>
    refine ⟨moved _ fun R hR => ?_, Int.le_refl _⟩
    rcases phase with ⟨R', hp, rfl⟩ | ⟨_, rfl⟩
    · rw [hp]
      exact hR
    · cases hR
  | @publish a target journal phase =>
    have hput : Revised (w.put token { r with phase := .published target journal }) :=
      moved _ fun R hR => by rw [phase]; exact hR
    exact ⟨hput.congr rfl rfl, Int.le_refl _⟩
  | skip phase unchanged => exact ⟨moved _ fun R hR => by rw [phase]; exact hR, Int.le_refl _⟩
  | toPost phase =>
    refine ⟨moved _ fun R hR => ?_, Int.le_refl _⟩
    rcases phase with hp | hp <;> rw [hp] <;> exact hR
  | @post a target journal phase =>
    have hput : Revised (w.put token { r with phase := .posted target journal }) :=
      moved _ fun R hR => by rw [phase]; exact hR
    exact ⟨hput.congr rfl rfl, Int.le_refl _⟩
  | @reject target journal loaded phase =>
    have hput : Revised (w.put token { r with phase := .refused journal }) :=
      moved _ fun R hR => by cases hR
    exact ⟨hput.congr rfl rfl, Int.le_refl _⟩
  | checkpoint phase holds same hash =>
    refine ⟨revised_put h same fun htok R hR => h.ahead token r hrun htok R ?_, ?_⟩
    · rw [phase]
      exact hR
    · exact same.applied ▸ Int.le_refl _
  | note held unposted holds same hash =>
    refine ⟨revised_put h same fun htok R hR => (by cases hR), ?_⟩
    exact same.applied ▸ Int.le_refl _
  | guard now phase holds =>
    obtain ⟨hrev, hmono⟩ := revised_recorded (r := r) h holds
      (hok r hrun holds) (sameRevisions_refl _) (rfl : Phase.recorded.target = none)
    exact ⟨hrev.congr rfl rfl, hmono⟩
  | noop phase holds =>
    obtain ⟨hrev, hmono⟩ := revised_recorded (r := r) h holds
      (h.ahead token r hrun holds _ (by rw [phase]; rfl)) (sameRevisions_refl _)
      (rfl : Phase.recorded.target = none)
    exact ⟨hrev.congr rfl rfl, hmono⟩
  | @accept a target journal row next phase holds same hash next_eq =>
    obtain ⟨hrev, hmono⟩ := revised_recorded (r := r) h holds
      (h.ahead token r hrun holds _ (by rw [phase]; rfl)) same
      (show next.target = none by rcases next_eq with rfl | rfl <;> rfl)
    exact ⟨hrev.congr rfl rfl, hmono⟩
  | leave alive =>
    refine ⟨revised_leave h, ?_⟩
    change w.row.appliedRevision ≤ (w.row.releaseLease token).appliedRevision
    unfold SyncState.releaseLease
    split_ifs <;> exact Int.le_refl _

/-- **One step** of the dashboard keeps the invariant and does not take `applied`
back. -/
theorem revised_of_step (h : Revised w) (hok : GuardsAhead w e)
    (hstep : step project sha256 w e = some w') :
    Revised w' ∧ w.row.appliedRevision ≤ w'.row.appliedRevision := by
  cases e with
  | core db now =>
    cases hstep
    exact ⟨revised_of_row (rowRevised_bumpCore h.row now) h.ahead, Int.le_refl _⟩
  | settings config now =>
    cases hstep
    exact ⟨revised_of_row (rowRevised_bumpCore h.row now) h.ahead, Int.le_refl _⟩
  | forceReload enabled =>
    cases hstep
    exact ⟨revised_of_row h.row h.ahead, Int.le_refl _⟩
  | reset now => exact hok.elim
  | tick token now =>
    simp only [step] at hstep
    split_ifs at hstep
    obtain ⟨force, _, rfl⟩ := Option.map_eq_some_iff.mp hstep
    exact ⟨revised_put h (sameRevisions_refl _) fun _ R hR => (by cases hR), Int.le_refl _⟩
  | request token intent =>
    simp only [step] at hstep
    split_ifs at hstep
    cases hstep
    exact ⟨revised_put h (sameRevisions_refl _) fun _ R hR => (by cases hR), Int.le_refl _⟩
  | act token action =>
    obtain ⟨r, hrun, hact⟩ := Option.bind_eq_some_iff.mp hstep
    exact revised_of_rule h hrun hok (rule_of_act hact)

theorem revised_init (config : Config) (db : Db) (file remote : Option String) (now : Int) :
    Revised (init config db file remote now) where
  nonneg := Int.le_refl 0
  le := (by decide : (0 : Int) ≤ 1)
  stamped _ := ⟨rfl, rfl⟩
  ahead _ _ h := by cases h

/-! ### Runs -/

/-- **The revisions, over every run whose guards complete ahead.**  From the first
boot on, in every state: `0 ≤ applied ≤ desired`, a dirty row has both stamps, and
`applied` has not gone back since any earlier state. -/
theorem revisions_of_run {config : Config} {db : Db} {file remote : Option String} {now : Int}
    {v w : World Config Db}
    (hreach : (interleaving project sha256).Run GuardsAhead (init config db file remote now) v)
    (hrun : (interleaving project sha256).Run GuardsAhead v w) :
    0 ≤ w.row.appliedRevision ∧ w.row.appliedRevision ≤ w.row.desiredRevision ∧
      (w.row.appliedRevision < w.row.desiredRevision →
        w.row.firstDirtyAt.isSome ∧ w.row.lastDirtyAt.isSome) ∧
      v.row.appliedRevision ≤ w.row.appliedRevision := by
  have keep : ∀ s (e : Event Config Db) t, Revised s → GuardsAhead s e →
      (interleaving project sha256).step s e = some t → Revised t :=
    fun s e t hs hok hst => (revised_of_step hs hok hst).1
  have hv : Revised v := hreach.invariant keep (revised_init config db file remote now)
  have hw : Revised w := hrun.invariant keep hv
  refine ⟨hw.nonneg, hw.le, hw.stamped, ?_⟩
  exact hrun.mono_of_step (f := fun s => s.row.appliedRevision) keep
    (fun s e t hs hok hst => (revised_of_step hs hok hst).2) hv

/-! ### A guard that completes late -/

def NoReset : Event Config Db → Prop
  | .reset _ => False
  | _ => True

/-- The dashboard whose configuration is ready, or not. -/
def late : Transition.System (World Bool Unit) (Event Bool Unit) := interleaving (fun _ _ => "") id

/-- The tick of `a` reads revision 1 and a configuration that is not ready; the
operator repairs it, and the manual sync `b` goes through. -/
def repaired : List (Event Bool Unit) :=
  [.tick "a" 10, .settings true 20, .request "b" .manualSync, .act "b" (.claim "web" 90 30),
    .act "b" .load, .act "b" .capture, .act "b" .project, .act "b" .publish, .act "b" .decide,
    .act "b" .post, .act "b" (.recordAll .accepted 40), .act "b" .leave]

/-- Now `a` claims, finds the configuration it read not ready, and completes as a
guard. -/
def lateGuard : List (Event Bool Unit) :=
  [.act "a" (.claim "coordinator" 90 50), .act "a" (.guard 50)]

/-- What the claim is about: `applied`, `desired` and the dirty window. -/
def revisions (w : World Bool Unit) : Int × Int × Option Int × Option Int :=
  (w.row.appliedRevision, w.row.desiredRevision, w.row.firstDirtyAt, w.row.lastDirtyAt)

/-- **A late guard takes `applied` back**, from 2 to 1, and leaves a dirty row
with no stamps. -/
theorem late_guard_takes_back : ∃ v w : World Bool Unit,
    late.Run (fun _ e => NoReset e) (init false () none none 0) v ∧
      late.Run (fun _ e => NoReset e) v w ∧
      w.row.appliedRevision < v.row.appliedRevision ∧
      w.row.appliedRevision < w.row.desiredRevision ∧
      w.row.firstDirtyAt = none ∧ w.row.lastDirtyAt = none := by
  have hfirst : (late.exec (init false () none none 0) repaired).map revisions =
      some (2, 2, none, none) := by decide
  obtain ⟨v, hexec, hv, hview⟩ := Transition.System.run_of_view
    (Transition.System.meets_of_forall (p := NoReset) repaired _ (by simp [repaired, NoReset]))
    hfirst
  have hlate : (late.exec v lateGuard).map revisions = some (1, 2, none, none) := by
    have hall : (late.exec (init false () none none 0) (repaired ++ lateGuard)).map revisions =
        some (1, 2, none, none) := by decide
    rw [Transition.System.exec_append, hexec] at hall
    exact hall
  obtain ⟨w, _, hw, hview'⟩ := Transition.System.run_of_view
    (Transition.System.meets_of_forall (p := NoReset) lateGuard v (by simp [lateGuard, NoReset]))
    hlate
  simp only [revisions, Prod.mk.injEq] at hview hview'
  obtain ⟨ha, _, _, _⟩ := hview
  obtain ⟨ha', hd', hf', hl'⟩ := hview'
  exact ⟨v, w, hv, hw, by omega, by omega, hf', hl'⟩

/-- The same run without the late guard, and a commit after it. -/
theorem revisions_after_repair : ∃ v w : World Bool Unit,
    late.exec (init false () none none 0) repaired = some v ∧
      late.step v (.core () 60) = some w ∧
      0 ≤ w.row.appliedRevision ∧ w.row.appliedRevision ≤ w.row.desiredRevision ∧
      (w.row.appliedRevision < w.row.desiredRevision →
        w.row.firstDirtyAt.isSome ∧ w.row.lastDirtyAt.isSome) ∧
      v.row.appliedRevision ≤ w.row.appliedRevision := by
  have hfirst : (late.exec (init false () none none 0) repaired).map revisions =
      some (2, 2, none, none) := by decide
  obtain ⟨v, hexec, hv, _⟩ := Transition.System.run_of_view
    (Transition.System.meets_of_forall (p := fun e => ∀ s, GuardsAhead s e) repaired _
      (by simp [repaired, GuardsAhead])) hfirst
  refine ⟨v, _, hexec, rfl, ?_⟩
  exact revisions_of_run (hv.weaken fun s e h => h s)
    (.tail (.refl v) (e := .core () 60) trivial rfl)

end World

end FinancialDashboard.Paisa
