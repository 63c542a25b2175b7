import FinancialDashboard.Lib.Transition

/-!
# One system as another

A system simulates another on the same events where a relation of their states is kept by every
step: what the first can do, the second can.

* `Simulates.exec`: so it is with a whole trace.
-/

namespace Transition

namespace System

variable {State Abstract Event : Type}

/-- Each step of `sys` that meets the condition is one of `spec`, and the states stay related. -/
def Simulates (sys : System State Event) (spec : System Abstract Event)
    (ok : State → Event → Prop) (related : State → Abstract → Prop) : Prop :=
  ∀ s a e t, related s a → ok s e → sys.step s e = some t →
    ∃ b, spec.step a e = some b ∧ related t b

variable {sys : System State Event} {spec : System Abstract Event} {ok : State → Event → Prop}
  {related : State → Abstract → Prop}

/-- **A trace of the one is a trace of the other.** -/
theorem Simulates.exec (h : Simulates sys spec ok related) :
    ∀ {es : List Event} {s t : State} {a : Abstract}, related s a → sys.Meets ok s es →
      sys.exec s es = some t → ∃ b, spec.exec a es = some b ∧ related t b := by
  intro es
  induction es with
  | nil =>
    rintro s t a hrelated - ⟨⟩
    exact ⟨a, rfl, hrelated⟩
  | cons e es ih =>
    intro s t a hrelated hmeets ht
    obtain ⟨u, hu, ht⟩ := Option.bind_eq_some_iff.mp ht
    obtain ⟨hok, hrest⟩ := hmeets
    obtain ⟨b, hb, hrelated'⟩ := h s a e u hrelated hok hu
    obtain ⟨d, hd, hlast⟩ := ih hrelated' (hrest u hu) ht
    exact ⟨d, Option.bind_eq_some_iff.mpr ⟨b, hb, hd⟩, hlast⟩

end System

end Transition
