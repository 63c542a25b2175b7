import Mathlib.Order.Defs.PartialOrder

/-!
# Transition systems

A system is a *guarded* step function: `step s e` is `some t` when the event `e`
is enabled in `s`, and `none` otherwise.  So one definition is both what a proof
takes apart and what a trace is replayed on.

`Run sys ok s t` is the run of the system: `t` is reached from `s` by enabled
events, each of which meets `ok` in the state it is taken in.  With `ok` always
true these are all the runs.  A condition on steps is how a property that some
step can break is said to hold of the runs that avoid that step.

* `Run.invariant`: what holds at the start and survives every step holds at the
  end.
* `Run.mono_of_step`: a quantity no step lowers is no lower at the end.
* `run_of_exec`: a trace that replays, with the condition met along it, is a run.
-/

namespace Transition

/-- A guarded, executable step function. -/
structure System (State Event : Type) where
  step : State → Event → Option State

namespace System

variable {State Event : Type} (sys : System State Event)

/-- The runs of `sys` whose steps all meet `ok`. -/
inductive Run (ok : State → Event → Prop) : State → State → Prop
  | refl (s : State) : Run ok s s
  | tail {s t u : State} {e : Event} : Run ok s t → ok t e → sys.step t e = some u → Run ok s u

/-- The condition every step meets. -/
def always : State → Event → Prop := fun _ _ => True

variable {sys} {ok ok' : State → Event → Prop}

theorem Run.trans {s t u : State} (h : sys.Run ok s t) (g : sys.Run ok t u) : sys.Run ok s u := by
  induction g with
  | refl => exact h
  | tail _ ho hs ih => exact .tail ih ho hs

/-- **The invariant rule.**  What holds at the start and survives every step
that meets the condition holds wherever a run goes. -/
theorem Run.invariant {I : State → Prop}
    (hstep : ∀ s e t, I s → ok s e → sys.step s e = some t → I t)
    {s t : State} (h : sys.Run ok s t) (hs : I s) : I t := by
  induction h with
  | refl => exact hs
  | tail _ ho ht ih => exact hstep _ _ _ ih ho ht

/-- The runs under a condition are runs under any weaker one. -/
theorem Run.weaken (hok : ∀ s e, ok s e → ok' s e) {s t : State} (h : sys.Run ok s t) :
    sys.Run ok' s t := by
  induction h with
  | refl => exact .refl _
  | tail _ ho ht ih => exact .tail ih (hok _ _ ho) ht

/-- **A quantity no step lowers is no lower at the end of a run**, where the
steps are taken from states that satisfy an invariant. -/
theorem Run.mono_of_step {I : State → Prop} {α : Type} [Preorder α] {f : State → α}
    (hinv : ∀ s e t, I s → ok s e → sys.step s e = some t → I t)
    (hmono : ∀ s e t, I s → ok s e → sys.step s e = some t → f s ≤ f t)
    {s t : State} (h : sys.Run ok s t) (hs : I s) : f s ≤ f t := by
  induction h with
  | refl => exact le_refl _
  | tail hr ho ht ih => exact le_trans ih (hmono _ _ _ (hr.invariant hinv hs) ho ht)

variable (sys)

/-- Replay a trace; `none` if some event along it is not enabled. -/
def exec : State → List Event → Option State
  | s, [] => some s
  | s, e :: es => (sys.step s e).bind fun t => exec t es

/-- Every step of the trace meets the condition in the state it is taken in. -/
def Meets (ok : State → Event → Prop) : State → List Event → Prop
  | _, [] => True
  | s, e :: es => ok s e ∧ ∀ t ∈ sys.step s e, Meets ok t es

instance Meets.decidable {ok : State → Event → Prop} [∀ s e, Decidable (ok s e)] :
    ∀ (s : State) (es : List Event), Decidable (sys.Meets ok s es)
  | _, [] => inferInstanceAs (Decidable True)
  | s, e :: es =>
    have : DecidablePred fun t => sys.Meets ok t es := fun t => Meets.decidable t es
    inferInstanceAs (Decidable (ok s e ∧ ∀ t, t ∈ sys.step s e → sys.Meets ok t es))

variable {sys}

/-- A condition that the events of a trace meet in every state is met along it. -/
theorem meets_of_always : ∀ (es : List Event) (s : State), (∀ e ∈ es, ∀ t, ok t e) →
    sys.Meets ok s es
  | [], _, _ => trivial
  | e :: es, s, h => ⟨h e List.mem_cons_self s, fun t _ =>
      meets_of_always es t fun e' he' => h e' (List.mem_cons_of_mem e he')⟩

/-- A condition on the events alone is met wherever they are taken. -/
theorem meets_of_forall {p : Event → Prop} (es : List Event) (s : State) (h : ∀ e ∈ es, p e) :
    sys.Meets (fun _ e => p e) s es :=
  meets_of_always es s fun e he _ => h e he

/-- **A trace that replays is a run.** -/
theorem run_of_exec : ∀ {es : List Event} {s t : State}, sys.Meets ok s es →
    sys.exec s es = some t → sys.Run ok s t := by
  intro es
  induction es with
  | nil =>
    intro s t _ h
    simp only [exec, Option.some.injEq] at h
    exact h ▸ .refl _
  | cons e es ih =>
    intro s t hm h
    simp only [exec, Option.bind_eq_some_iff] at h
    obtain ⟨u, hu, hr⟩ := h
    exact (Run.tail (.refl s) hm.1 hu).trans (ih (hm.2 u hu) hr)

theorem exec_append (es fs : List Event) (s : State) :
    sys.exec s (es ++ fs) = (sys.exec s es).bind fun t => sys.exec t fs := by
  induction es generalizing s with
  | nil => rfl
  | cons e es ih =>
    cases h : sys.step s e with
    | none => simp [exec, h]
    | some t => simpa [exec, h] using ih t

/-- A trace of which one view is known is a run to a state with that view. -/
theorem run_of_view {α : Type} {f : State → α} {es : List Event} {s : State} {x : α}
    (hm : sys.Meets ok s es) (h : (sys.exec s es).map f = some x) :
    ∃ t, sys.exec s es = some t ∧ sys.Run ok s t ∧ f t = x := by
  obtain ⟨t, ht, hx⟩ := Option.map_eq_some_iff.mp h
  exact ⟨t, ht, run_of_exec hm ht, hx⟩

end System

end Transition
