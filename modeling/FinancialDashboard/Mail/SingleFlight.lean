import FinancialDashboard.Lib.Transition
import Mathlib.Tactic.SplitIfs

/-!
# One poll at a time

`FetchService` of `services/fetch.py` and the lock of `poll_all`: a background task polls again and
again, a request starts a task that polls once, and all of them may find the lock taken.  What
happens between two awaits is one step, and the tasks take them in any order.

* `Consistent`: what the lock, the status and the two task fields say of the tasks.
* `single_flight`: in every state that is reached one task polls at most, and a request is refused
  just when one polls or another request waits.
-/

namespace FinancialDashboard.Mail

inductive TaskKind
  /-- `_poll_loop` -/
  | loop
  /-- The task of a request. -/
  | manual
  deriving DecidableEq, Repr

inductive TaskPhase
  /-- `poll_all` has not begun. -/
  | waiting
  | polling
  /-- The loop is at what follows a poll. -/
  | resting
  | done
  deriving DecidableEq, Repr

structure PollTask where
  kind : TaskKind
  phase : TaskPhase
  deriving DecidableEq, Repr

/-- The tasks are numbered as they were created. -/
structure FetchService where
  /-- Who has the lock. -/
  holder : Option Nat
  /-- `status["state"] == "polling"` -/
  polling : Bool
  pollLoopTask : Option Nat
  activePollTask : Option Nat
  tasks : List PollTask

namespace FetchService

def start : FetchService := ⟨none, false, none, none, []⟩

/-- The task is there and not done. -/
def unfinished (s : FetchService) (task : Option Nat) : Bool :=
  task.any fun i => s.tasks[i]?.any (·.phase ≠ .done)

/-- `trigger_poll` answers that it has started a poll. -/
def accepts (s : FetchService) : Bool := !s.polling && !s.unfinished s.activePollTask

def setPhase (s : FetchService) (i : Nat) (phase : TaskPhase) : FetchService :=
  { s with tasks := s.tasks.modify i fun task => { task with phase } }

/-- What a task does after `poll_all`: the loop goes on, whatever came of the poll. -/
def afterPoll : TaskKind → TaskPhase
  | .loop => .resting
  | .manual => .done

inductive Event
  | trigger
  | startPollLoop
  | stopPollLoop
  /-- `poll_all` begins in the task. -/
  | enter (i : Nat)
  /-- It returns, or raises. -/
  | leave (i : Nat)
  /-- The loop comes round. -/
  | wake (i : Nat)
  /-- `_track_poll_task` -/
  | trackPollTask (i : Nat)
  deriving DecidableEq, Repr

/-- `poll_all` up to its first await. -/
def enter (s : FetchService) (i : Nat) (kind : TaskKind) : FetchService :=
  if s.holder.isSome then s.setPhase i (afterPoll kind)
  else { s.setPhase i .polling with
    holder := some i
    polling := true }

/-- The end of `poll_all`, which has the lock. -/
def release (s : FetchService) (i : Nat) (phase : TaskPhase) : FetchService :=
  { s.setPhase i phase with
    holder := none
    polling := false }

/-- The task is cancelled where it is. -/
def cancel (s : FetchService) (i : Nat) (task : PollTask) : FetchService :=
  match task.phase with
  | .polling => s.release i .done
  | _ => s.setPhase i .done

def service : Transition.System FetchService Event where
  step s
    | .trigger =>
      if s.accepts then
        some { s with
          activePollTask := some s.tasks.length
          tasks := s.tasks ++ [⟨.manual, .waiting⟩] }
      else some s
    | .startPollLoop =>
      if s.unfinished s.pollLoopTask then some s
      else
        some { s with
          pollLoopTask := some s.tasks.length
          tasks := s.tasks ++ [⟨.loop, .waiting⟩] }
    | .stopPollLoop =>
      match s.pollLoopTask with
      | none => some s
      | some i => (s.tasks[i]?).map fun task => { s.cancel i task with pollLoopTask := none }
    | .enter i =>
      match s.tasks[i]? with
      | some ⟨kind, .waiting⟩ => some (s.enter i kind)
      | _ => none
    | .leave i =>
      match s.tasks[i]? with
      | some ⟨kind, .polling⟩ => some (s.release i (afterPoll kind))
      | _ => none
    | .wake i =>
      match s.tasks[i]? with
      | some ⟨_, .resting⟩ => some (s.setPhase i .waiting)
      | _ => none
    | .trackPollTask i =>
      match s.tasks[i]? with
      | some ⟨.manual, .done⟩ =>
        some { s with activePollTask := s.activePollTask.filter (· ≠ i) }
      | _ => none

/-! ### What the fields say of the tasks -/

structure Consistent (s : FetchService) : Prop where
  holder (i : Nat) : s.holder = some i ↔ ∃ kind, s.tasks[i]? = some ⟨kind, .polling⟩
  polling : s.polling = s.holder.isSome
  /-- Only the active task of the requests is not done. -/
  active {i : Nat} {phase : TaskPhase} (h : s.tasks[i]? = some ⟨.manual, phase⟩)
    (hphase : phase ≠ .done) : s.activePollTask = some i
  loop {i : Nat} {phase : TaskPhase} (h : s.tasks[i]? = some ⟨.loop, phase⟩)
    (hphase : phase ≠ .done) : s.pollLoopTask = some i
  /-- A task that was created is there, and of its kind. -/
  created {i : Nat} (h : s.activePollTask = some i) :
    ∃ phase, s.tasks[i]? = some ⟨.manual, phase⟩

variable {s : FetchService} {i j : Nat} {kind : TaskKind} {old phase : TaskPhase}
  {task : PollTask}

theorem getElem?_setPhase (hi : s.tasks[i]? = some ⟨kind, old⟩) :
    (s.setPhase i phase).tasks[j]? = if i = j then some ⟨kind, phase⟩ else s.tasks[j]? := by
  show (s.tasks.modify i _)[j]? = _
  rw [List.getElem?_modify]
  by_cases h : i = j
  · subst h
    rw [if_pos rfl, hi]
    simp
  · rw [if_neg h]
    simp [h]

theorem consistent_start : Consistent start where
  holder i := by simp [start]
  polling := rfl
  active h := by simp [start] at h
  loop h := by simp [start] at h
  created h := by simp [start] at h

/-- **A task that is not done goes on**, and the lock with it. -/
theorem Consistent.move (h : Consistent s) (hi : s.tasks[i]? = some ⟨kind, old⟩)
    (hlive : phase = .done ∨ old ≠ .done) {holder : Option Nat}
    (hholder : ∀ j, holder = some j ↔ if i = j then phase = .polling else s.holder = some j) :
    Consistent { s.setPhase i phase with
      holder
      polling := holder.isSome } where
  holder j := by
    show holder = some j ↔ ∃ kind, (s.setPhase i phase).tasks[j]? = some ⟨kind, .polling⟩
    rw [hholder, getElem?_setPhase hi]
    by_cases hij : i = j
    · rw [if_pos hij, if_pos hij]
      exact ⟨fun hphase => ⟨kind, by rw [hphase]⟩, fun hsome => by
        obtain ⟨kind', heq⟩ := hsome
        exact congrArg PollTask.phase (Option.some.inj heq)⟩
    · rw [if_neg hij, if_neg hij]
      exact h.holder j
  polling := rfl
  active {j phase'} hj hphase := by
    show s.activePollTask = some j
    have hj : (s.setPhase i phase).tasks[j]? = some ⟨.manual, phase'⟩ := hj
    rw [getElem?_setPhase hi] at hj
    split_ifs at hj with hij
    · obtain ⟨rfl, rfl⟩ := PollTask.mk.inj (Option.some.inj hj)
      subst hij
      exact h.active hi (hlive.resolve_left hphase)
    · exact h.active hj hphase
  loop {j phase'} hj hphase := by
    show s.pollLoopTask = some j
    have hj : (s.setPhase i phase).tasks[j]? = some ⟨.loop, phase'⟩ := hj
    rw [getElem?_setPhase hi] at hj
    split_ifs at hj with hij
    · obtain ⟨rfl, rfl⟩ := PollTask.mk.inj (Option.some.inj hj)
      subst hij
      exact h.loop hi (hlive.resolve_left hphase)
    · exact h.loop hj hphase
  created {j} hj := by
    show ∃ phase', (s.setPhase i phase).tasks[j]? = some ⟨.manual, phase'⟩
    obtain ⟨phase', hphase'⟩ := h.created hj
    rw [getElem?_setPhase hi]
    by_cases hij : i = j
    · subst hij
      rw [hi] at hphase'
      obtain ⟨rfl, -⟩ := PollTask.mk.inj (Option.some.inj hphase')
      exact ⟨phase, if_pos rfl⟩
    · exact ⟨phase', (if_neg hij).trans hphase'⟩

/-- A task that neither had the lock nor takes it. -/
theorem Consistent.setPhase (h : Consistent s) (hi : s.tasks[i]? = some ⟨kind, old⟩)
    (hlive : phase = .done ∨ old ≠ .done) (hold : old ≠ .polling) (hphase : phase ≠ .polling) :
    Consistent (s.setPhase i phase) := by
  have hholder : ∀ j, s.holder = some j ↔ if i = j then phase = .polling else s.holder = some j := by
    intro j
    by_cases hij : i = j
    · subst hij
      rw [if_pos rfl, h.holder, hi]
      exact iff_of_false (by simpa using hold) hphase
    · rw [if_neg hij]
  have hmoved := h.move hi hlive hholder
  rwa [← h.polling] at hmoved

theorem afterPoll_ne_polling (kind : TaskKind) : afterPoll kind ≠ .polling := by
  cases kind <;> exact TaskPhase.noConfusion

theorem Consistent.enter (h : Consistent s) (hi : s.tasks[i]? = some ⟨kind, .waiting⟩) :
    Consistent (s.enter i kind) := by
  unfold FetchService.enter
  cases hfree : s.holder with
  | some j =>
    rw [Option.isSome_some, if_pos rfl]
    exact h.setPhase hi (.inr TaskPhase.noConfusion) TaskPhase.noConfusion
      (afterPoll_ne_polling kind)
  | none =>
    rw [Option.isSome_none, if_neg Bool.false_ne_true]
    refine h.move hi (.inr TaskPhase.noConfusion) fun j => ?_
    rw [hfree]
    simp

theorem Consistent.release (h : Consistent s) (hi : s.tasks[i]? = some ⟨kind, .polling⟩)
    (hphase : phase ≠ .polling) : Consistent (s.release i phase) := by
  have hholds : s.holder = some i := (h.holder i).mpr ⟨kind, hi⟩
  refine h.move hi (.inr TaskPhase.noConfusion) fun j => ?_
  rw [hholds]
  by_cases hij : i = j
  · simp [hij, hphase]
  · simp [hij]

theorem Consistent.cancel (h : Consistent s) (hi : s.tasks[i]? = some task) :
    Consistent (s.cancel i task) := by
  obtain ⟨kind, phase⟩ := task
  unfold FetchService.cancel
  cases phase with
  | polling => exact h.release hi TaskPhase.noConfusion
  | waiting => exact h.setPhase hi (.inl rfl) TaskPhase.noConfusion TaskPhase.noConfusion
  | resting => exact h.setPhase hi (.inl rfl) TaskPhase.noConfusion TaskPhase.noConfusion
  | done => exact h.setPhase hi (.inl rfl) TaskPhase.noConfusion TaskPhase.noConfusion

theorem unfinished_iff {field : Option Nat} : s.unfinished field = true ↔
    ∃ i task, field = some i ∧ s.tasks[i]? = some task ∧ task.phase ≠ .done := by
  unfold unfinished
  rw [Option.any_eq_true]
  simp only [Option.any_eq_true, decide_eq_true_eq]
  constructor
  · rintro ⟨i, hfield, task, htask, hphase⟩
    exact ⟨i, task, hfield, htask, hphase⟩
  · rintro ⟨i, task, hfield, htask, hphase⟩
    exact ⟨i, hfield, task, htask, hphase⟩

/-- A task that is created: it is the new one, or one that was there. -/
theorem getElem?_create {tasks : List PollTask} {new : PollTask} :
    (tasks ++ [new])[i]? = some task ↔
      tasks[i]? = some task ∨ i = tasks.length ∧ new = task := by
  rcases Nat.lt_trichotomy i tasks.length with hlt | rfl | hgt
  · rw [List.getElem?_append_left hlt]
    exact (or_iff_left fun h => absurd h.1 (Nat.ne_of_lt hlt)).symm
  · rw [List.getElem?_concat_length]
    simp
  · have hnone : tasks.length + 1 ≤ i := hgt
    rw [List.getElem?_eq_none (by simpa using hnone), List.getElem?_eq_none (Nat.le_of_lt hgt)]
    refine iff_of_false (by simp) ?_
    rintro (hnone | ⟨hlength, -⟩)
    · cases hnone
    · exact absurd hlength (Nat.ne_of_gt hgt)

theorem Consistent.trigger (h : Consistent s) (haccepts : s.accepts = true) :
    Consistent { s with
      activePollTask := some s.tasks.length
      tasks := s.tasks ++ [⟨.manual, .waiting⟩] } where
  holder i := by
    rw [h.holder]
    refine exists_congr fun kind => ?_
    show _ ↔ (s.tasks ++ _)[i]? = _
    rw [getElem?_create]
    simp
  polling := h.polling
  active {i phase} hi hphase := by
    show some s.tasks.length = some i
    rcases getElem?_create.mp hi with hi | ⟨rfl, -⟩
    · -- the task that was active would not be done
      have hactive := h.active hi hphase
      have hunfinished : s.unfinished s.activePollTask = true :=
        unfinished_iff.mpr ⟨i, _, hactive, hi, hphase⟩
      unfold accepts at haccepts
      rw [hunfinished, Bool.not_true, Bool.and_false] at haccepts
      cases haccepts
    · rfl
  loop {i phase} hi hphase := by
    rcases getElem?_create.mp hi with hi | ⟨-, hnew⟩
    · exact h.loop hi hphase
    · cases hnew
  created {i} hi := by
    obtain rfl := Option.some.inj hi
    exact ⟨.waiting, getElem?_create.mpr (.inr ⟨rfl, rfl⟩)⟩

theorem Consistent.startPollLoop (h : Consistent s)
    (hidle : ¬ s.unfinished s.pollLoopTask = true) :
    Consistent { s with
      pollLoopTask := some s.tasks.length
      tasks := s.tasks ++ [⟨.loop, .waiting⟩] } where
  holder i := by
    rw [h.holder]
    refine exists_congr fun kind => ?_
    show _ ↔ (s.tasks ++ _)[i]? = _
    rw [getElem?_create]
    simp
  polling := h.polling
  active {i phase} hi hphase := by
    rcases getElem?_create.mp hi with hi | ⟨-, hnew⟩
    · exact h.active hi hphase
    · cases hnew
  loop {i phase} hi hphase := by
    show some s.tasks.length = some i
    rcases getElem?_create.mp hi with hi | ⟨rfl, -⟩
    · exact absurd (unfinished_iff.mpr ⟨i, _, h.loop hi hphase, hi, hphase⟩) hidle
    · rfl
  created {i} hi := by
    obtain ⟨phase, hphase⟩ := h.created hi
    exact ⟨phase, getElem?_create.mpr (.inl hphase)⟩

theorem Consistent.stopPollLoop (h : Consistent s) (hfield : s.pollLoopTask = some i)
    (hi : s.tasks[i]? = some task) :
    Consistent { s.cancel i task with pollLoopTask := none } := by
  have hcancel : Consistent (s.cancel i task) := h.cancel hi
  have hsame : (s.cancel i task).pollLoopTask = s.pollLoopTask ∧
      (s.cancel i task).tasks[i]? = some ⟨task.kind, .done⟩ := by
    obtain ⟨kind, phase⟩ := task
    unfold FetchService.cancel
    have hdone : (s.setPhase i .done).tasks[i]? = some ⟨kind, .done⟩ :=
      (getElem?_setPhase hi).trans (if_pos rfl)
    cases phase <;> exact ⟨rfl, hdone⟩
  exact {
    holder := hcancel.holder
    polling := hcancel.polling
    active := hcancel.active
    loop := fun {j phase} hj hphase => by
      -- the loop that was cancelled was the only one
      have hloop := hcancel.loop hj hphase
      rw [hsame.1, hfield] at hloop
      obtain rfl := Option.some.inj hloop
      obtain ⟨-, rfl⟩ := PollTask.mk.inj (Option.some.inj (hsame.2.symm.trans hj))
      exact absurd rfl hphase
    created := hcancel.created }

theorem Consistent.trackPollTask (h : Consistent s) (hi : s.tasks[i]? = some ⟨.manual, .done⟩) :
    Consistent { s with activePollTask := s.activePollTask.filter (· ≠ i) } where
  holder := h.holder
  polling := h.polling
  active {j phase} hj hphase := by
    refine Option.filter_eq_some_iff.mpr ⟨h.active hj hphase, decide_eq_true fun heq => ?_⟩
    subst heq
    obtain ⟨-, rfl⟩ := PollTask.mk.inj (Option.some.inj (hi.symm.trans hj))
    exact hphase rfl
  loop := h.loop
  created {j} hj := h.created (Option.filter_eq_some_iff.mp hj).1

/-- **Every step keeps the fields true to the tasks.** -/
theorem consistent_step {t : FetchService} {e : Event} (h : Consistent s)
    (hstep : service.step s e = some t) : Consistent t := by
  cases e with
  | trigger =>
    dsimp only [service] at hstep
    split_ifs at hstep with haccepts
    · obtain rfl := Option.some.inj hstep
      exact h.trigger haccepts
    · obtain rfl := Option.some.inj hstep
      exact h
  | startPollLoop =>
    dsimp only [service] at hstep
    split_ifs at hstep with hidle
    · obtain rfl := Option.some.inj hstep
      exact h
    · obtain rfl := Option.some.inj hstep
      exact h.startPollLoop hidle
  | stopPollLoop =>
    dsimp only [service] at hstep
    cases hfield : s.pollLoopTask with
    | none =>
      rw [hfield] at hstep
      obtain rfl := Option.some.inj hstep
      exact h
    | some i =>
      rw [hfield] at hstep
      obtain ⟨task, hi, rfl⟩ := Option.map_eq_some_iff.mp hstep
      exact h.stopPollLoop hfield hi
  | enter i =>
    dsimp only [service] at hstep
    cases hi : s.tasks[i]? with
    | none =>
      rw [hi] at hstep
      cases hstep
    | some task =>
      obtain ⟨kind, phase⟩ := task
      rw [hi] at hstep
      cases phase with
      | waiting =>
        obtain rfl := Option.some.inj hstep
        exact h.enter hi
      | polling => cases hstep
      | resting => cases hstep
      | done => cases hstep
  | leave i =>
    dsimp only [service] at hstep
    cases hi : s.tasks[i]? with
    | none =>
      rw [hi] at hstep
      cases hstep
    | some task =>
      obtain ⟨kind, phase⟩ := task
      rw [hi] at hstep
      cases phase with
      | polling =>
        obtain rfl := Option.some.inj hstep
        exact h.release hi (afterPoll_ne_polling kind)
      | waiting => cases hstep
      | resting => cases hstep
      | done => cases hstep
  | wake i =>
    dsimp only [service] at hstep
    cases hi : s.tasks[i]? with
    | none =>
      rw [hi] at hstep
      cases hstep
    | some task =>
      obtain ⟨kind, phase⟩ := task
      rw [hi] at hstep
      cases phase with
      | resting =>
        obtain rfl := Option.some.inj hstep
        exact h.setPhase hi (.inr TaskPhase.noConfusion) TaskPhase.noConfusion
          TaskPhase.noConfusion
      | waiting => cases hstep
      | polling => cases hstep
      | done => cases hstep
  | trackPollTask i =>
    dsimp only [service] at hstep
    cases hi : s.tasks[i]? with
    | none =>
      rw [hi] at hstep
      cases hstep
    | some task =>
      obtain ⟨kind, phase⟩ := task
      rw [hi] at hstep
      cases kind with
      | loop => cases hstep
      | manual =>
        cases phase with
        | done =>
          obtain rfl := Option.some.inj hstep
          exact h.trackPollTask hi
        | waiting => cases hstep
        | polling => cases hstep
        | resting => cases hstep

/-- The task polls, or is one of a request that has not polled yet. -/
def Busy (task : PollTask) : Prop := task.phase = .polling ∨ task.kind = .manual ∧ task.phase ≠ .done

/-- **One poll at a time**: in every state that is reached one task polls at most, it has the lock
and the status shows it; and a request starts a poll just when none runs and no other request
waits for one. -/
theorem single_flight {ok : FetchService → Event → Prop} {t : FetchService}
    (h : service.Run ok start t) :
    (∀ (i j : Nat) (ti tj : PollTask), t.tasks[i]? = some ti → t.tasks[j]? = some tj →
      ti.phase = .polling → tj.phase = .polling → i = j) ∧
    (t.polling = true ↔ ∃ task ∈ t.tasks, task.phase = .polling) ∧
    (t.accepts = true ↔ ∀ task ∈ t.tasks, ¬ Busy task) := by
  have hinv : Consistent t :=
    h.invariant (fun s e t hs _ hstep => consistent_step hs hstep) consistent_start
  have hpolling : t.polling = true ↔ ∃ task ∈ t.tasks, task.phase = .polling := by
    rw [hinv.polling, Option.isSome_iff_exists]
    constructor
    · rintro ⟨i, hi⟩
      obtain ⟨kind, htask⟩ := (hinv.holder i).mp hi
      exact ⟨_, List.mem_of_getElem? htask, rfl⟩
    · rintro ⟨⟨kind, phase⟩, hmem, rfl⟩
      obtain ⟨i, hi⟩ := List.getElem?_of_mem hmem
      exact ⟨i, (hinv.holder i).mpr ⟨kind, hi⟩⟩
  refine ⟨?_, hpolling, ?_⟩
  · rintro i j ⟨ki, pi⟩ ⟨kj, pj⟩ hi hj rfl rfl
    have hholds : t.holder = some i := (hinv.holder i).mpr ⟨ki, hi⟩
    exact Option.some.inj (hholds.symm.trans ((hinv.holder j).mpr ⟨kj, hj⟩))
  · unfold accepts
    rw [Bool.and_eq_true, Bool.not_eq_true', Bool.not_eq_true', ← Bool.not_eq_true,
      ← Bool.not_eq_true, hpolling]
    constructor
    · rintro ⟨hnone, hidle⟩ ⟨kind, phase⟩ hmem hbusy
      rcases hbusy with hphase | ⟨hkind, hphase⟩
      · exact hnone ⟨_, hmem, hphase⟩
      · obtain ⟨i, hi⟩ := List.getElem?_of_mem hmem
        obtain rfl : kind = .manual := hkind
        exact hidle (unfinished_iff.mpr ⟨i, _, hinv.active hi hphase, hi, hphase⟩)
    · intro hfree
      refine ⟨?_, fun hunfinished => ?_⟩
      · rintro ⟨task, hmem, hphase⟩
        exact hfree task hmem (.inl hphase)
      · obtain ⟨i, task, hfield, hi, hphase⟩ := unfinished_iff.mp hunfinished
        obtain ⟨phase, hphase'⟩ := hinv.created hfield
        obtain rfl : task = ⟨.manual, phase⟩ := Option.some.inj (hi.symm.trans hphase')
        exact hfree _ (List.mem_of_getElem? hi) (.inr ⟨rfl, hphase⟩)

/-- A request and the loop: the request finds the lock taken. -/
theorem single_flight_overlap : ∃ t, service.exec start
      [.startPollLoop, .trigger, .enter 0, .enter 1, .trackPollTask 1] = some t ∧
    t.accepts = false ∧ ∃ task ∈ t.tasks, Busy task := by
  obtain ⟨t, ht, hrun, haccepts⟩ : ∃ t, service.exec start
      [.startPollLoop, .trigger, .enter 0, .enter 1, .trackPollTask 1] = some t ∧
      service.Run Transition.System.always start t ∧ t.accepts = false :=
    Transition.System.run_of_view (Transition.System.meets_of_always _ _ fun _ _ _ => trivial) rfl
  refine ⟨t, ht, haccepts, Classical.byContradiction fun hnone => ?_⟩
  have hfree : t.accepts = true :=
    (single_flight hrun).2.2.mpr fun task hmem hbusy => hnone ⟨task, hmem, hbusy⟩
  rw [haccepts] at hfree
  cases hfree

end FetchService

end FinancialDashboard.Mail
