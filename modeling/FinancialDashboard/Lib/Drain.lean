import Mathlib.Logic.Basic
import Mathlib.Order.Nat

/-!
# Repeating a step until it does nothing

`while True: n = step(); total += n; if n == 0: break`.  A step gives the state it leaves and
how much it has done.

* `drain_spec`: the loop stops, if a step that does something lowers a measure; what it leaves
  is what a step leaves that does nothing.
* `Begins.eq_of_stops`: that state is the only one in which a step begins and does nothing.
-/

namespace Drain

variable {σ : Type*} (step : σ → σ × ℕ)

/-- The loop; `none` if it does not stop in as many rounds. -/
def drain : ℕ → σ → Option (ℕ × σ)
  | 0, _ => none
  | rounds + 1, s =>
    if (step s).2 = 0 then some (0, (step s).1)
    else (drain rounds (step s).1).map fun (total, last) => ((step s).2 + total, last)

/-- The states in which a step of the loop begins. -/
inductive Begins (s : σ) : σ → Prop
  | first : Begins s s
  | next {s' : σ} : Begins s s' → (step s').2 ≠ 0 → Begins s (step s').1

variable {step} {s a b : σ}

namespace Begins

theorem trans (h : Begins step s a) (h' : Begins step a b) : Begins step s b := by
  induction h' with
  | first => exact h
  | next _ hne ih => exact .next ih hne

theorem eq_or_next (h : Begins step s a) :
    a = s ∨ (step s).2 ≠ 0 ∧ Begins step (step s).1 a := by
  induction h with
  | first => exact .inl rfl
  | next _ hne ih =>
    rcases ih with rfl | ⟨hfirst, h⟩
    · exact .inr ⟨hne, .first⟩
    · exact .inr ⟨hfirst, .next h hne⟩

theorem of_stops (ha : Begins step s a) (hb : Begins step s b) (hstop : (step b).2 = 0) :
    Begins step a b := by
  induction ha with
  | first => exact hb
  | next _ hne ih =>
    rcases ih.eq_or_next with rfl | ⟨-, h⟩
    · exact absurd hstop hne
    · exact h

/-- **A loop stops in one state only.** -/
theorem eq_of_stops (ha : Begins step s a) (hb : Begins step s b) (hstopa : (step a).2 = 0)
    (hstopb : (step b).2 = 0) : a = b := by
  rcases (ha.of_stops hb hstopb).eq_or_next with h | ⟨hne, -⟩
  · exact h.symm
  · exact absurd hstopa hne

/-- What a step keeps that does something holds wherever a step begins. -/
theorem invariant {P : σ → Prop} (hstep : ∀ s, P s → (step s).2 ≠ 0 → P (step s).1) (hs : P s)
    (h : Begins step s a) : P a := by
  induction h with
  | first => exact hs
  | next _ hne ih => exact hstep _ ih hne

end Begins

/-- **The loop stops** where a step does nothing. -/
theorem drain_spec {μ : σ → ℕ} (hμ : ∀ s, (step s).2 ≠ 0 → μ (step s).1 < μ s) {rounds : ℕ}
    (hrounds : μ s < rounds) :
    ∃ total last, drain step rounds s = some (total, (step last).1) ∧ Begins step s last ∧
      (step last).2 = 0 := by
  induction rounds generalizing s with
  | zero => exact absurd hrounds (Nat.not_lt_zero _)
  | succ rounds ih =>
    unfold drain
    by_cases hzero : (step s).2 = 0
    · rw [if_pos hzero]
      exact ⟨0, s, rfl, .first, hzero⟩
    · have hless := hμ s hzero
      obtain ⟨total, last, hdrain, hbegins, hlast⟩ := ih (s := (step s).1) (by omega)
      rw [if_neg hzero, hdrain]
      exact ⟨_, last, rfl, (Begins.next .first hzero).trans hbegins, hlast⟩

end Drain
