import Mathlib.Data.List.Perm.Basic
import Mathlib.Data.List.Nodup

/-!
# First come, first served

Requests are served one after the other, each with a resource that nobody before it
has taken or with none.  `choose taken a` is what `a` gets once `taken` are gone.

* `serve_append`: those who come later find less.
* `serve_perm`: every request is served or refused, and only once.
* `nodup_served`: no resource is given out twice.
* `served_reaches`: every request is served with a resource it reaches.
* `rounds_perm`, `nodup_rounds`: the same over a second round, in which those refused
  in the first are served by another rule with what is left.
* `serve_map`, `serve_filter`: requests under another name, and requests nobody serves.
* `serve_congr`: rules that serve these requests alike.
* `filterMap_perm`: what a partial map keeps and what it drops.
-/

namespace FirstCome

variable {α β : Type}

/-- The requests that were served, with what they got, and those that were refused. -/
structure Outcome (α β : Type) where
  served : List (α × β)
  refused : List α

namespace Outcome

/-- What was given out. -/
def given (o : Outcome α β) : List β := o.served.map Prod.snd

end Outcome

def serve (choose : List β → α → Option β) : List β → List α → Outcome α β
  | _, [] => ⟨[], []⟩
  | taken, a :: rest =>
    match choose taken a with
    | some b =>
      let later := serve choose (b :: taken) rest
      ⟨(a, b) :: later.served, later.refused⟩
    | none =>
      let later := serve choose taken rest
      ⟨later.served, a :: later.refused⟩

variable {choose : List β → α → Option β} {taken : List β} {a : α} {b : β} {rest requests : List α}

@[simp] theorem serve_nil : serve choose taken [] = ⟨[], []⟩ := rfl

theorem serve_cons_some (h : choose taken a = some b) :
    serve choose taken (a :: rest) =
      ⟨(a, b) :: (serve choose (b :: taken) rest).served,
        (serve choose (b :: taken) rest).refused⟩ := by
  simp [serve, h]

theorem serve_cons_none (h : choose taken a = none) :
    serve choose taken (a :: rest) =
      ⟨(serve choose taken rest).served, a :: (serve choose taken rest).refused⟩ := by
  simp [serve, h]

/-- What was given out is gone for those who come later. -/
theorem serve_append (choose : List β → α → Option β) (taken : List β) (a b : List α) :
    serve choose taken (a ++ b) =
      ⟨(serve choose taken a).served ++
          (serve choose ((serve choose taken a).given.reverse ++ taken) b).served,
        (serve choose taken a).refused ++
          (serve choose ((serve choose taken a).given.reverse ++ taken) b).refused⟩ := by
  induction a generalizing taken with
  | nil => rfl
  | cons x a ih =>
    rw [List.cons_append]
    cases h : choose taken x with
    | some y =>
      rw [serve_cons_some h, serve_cons_some h, ih (y :: taken)]
      simp [Outcome.given]
    | none =>
      rw [serve_cons_none h, serve_cons_none h, ih taken]
      rfl

/-- **Every request is served or refused, and only once.** -/
theorem serve_perm (choose : List β → α → Option β) (taken : List β) (requests : List α) :
    ((serve choose taken requests).served.map Prod.fst ++
      (serve choose taken requests).refused).Perm requests := by
  induction requests generalizing taken with
  | nil => simp
  | cons a rest ih =>
    cases h : choose taken a with
    | some b =>
      rw [serve_cons_some h]
      exact (ih (b :: taken)).cons a
    | none =>
      rw [serve_cons_none h]
      exact List.perm_middle.trans ((ih taken).cons a)

/-- The choices are among what is left, and each request gets what it reaches. -/
structure Fair (Reaches : α → β → Prop) (choose : List β → α → Option β) : Prop where
  free : ∀ {taken a b}, choose taken a = some b → b ∉ taken
  reaches : ∀ {taken a b}, choose taken a = some b → Reaches a b

variable {Reaches : α → β → Prop}

theorem not_mem_taken (hf : Fair Reaches choose) (h : b ∈ (serve choose taken requests).given) :
    b ∉ taken := by
  induction requests generalizing taken with
  | nil => cases h
  | cons a rest ih =>
    cases hc : choose taken a with
    | some c =>
      rw [serve_cons_some hc] at h
      rcases List.mem_cons.mp h with rfl | h
      · exact hf.free hc
      · exact fun hb => ih h (List.mem_cons_of_mem c hb)
    | none =>
      rw [serve_cons_none hc] at h
      exact ih h

/-- **No resource is given out twice.** -/
theorem nodup_served (hf : Fair Reaches choose) (taken : List β) (requests : List α) :
    (serve choose taken requests).given.Nodup := by
  induction requests generalizing taken with
  | nil => exact List.nodup_nil
  | cons a rest ih =>
    cases hc : choose taken a with
    | some b =>
      rw [serve_cons_some hc]
      refine List.nodup_cons.mpr ⟨fun hb => ?_, ih (b :: taken)⟩
      exact not_mem_taken hf hb List.mem_cons_self
    | none =>
      rw [serve_cons_none hc]
      exact ih taken

/-- **Every request is served with a resource it reaches.** -/
theorem served_reaches (hf : Fair Reaches choose) {p : α × β}
    (h : p ∈ (serve choose taken requests).served) : Reaches p.1 p.2 := by
  induction requests generalizing taken with
  | nil => cases h
  | cons a rest ih =>
    cases hc : choose taken a with
    | some b =>
      rw [serve_cons_some hc] at h
      rcases List.mem_cons.mp h with rfl | h
      · exact hf.reaches hc
      · exact ih h
    | none =>
      rw [serve_cons_none hc] at h
      exact ih h

/-! ### Other names, and requests that are never served -/

/-- Requests that are served alike under another name. -/
theorem serve_map {α' : Type} {choose' : List β → α' → Option β} (f : α → α')
    (hf : ∀ taken a, choose' taken (f a) = choose taken a) (taken : List β) (requests : List α) :
    serve choose' taken (requests.map f) =
      ⟨(serve choose taken requests).served.map (Prod.map f id),
        (serve choose taken requests).refused.map f⟩ := by
  induction requests generalizing taken with
  | nil => rfl
  | cons a rest ih =>
    rw [List.map_cons]
    cases h : choose taken a with
    | some b =>
      rw [serve_cons_some ((hf taken a).trans h), serve_cons_some h, ih (b :: taken)]
      rfl
    | none =>
      rw [serve_cons_none ((hf taken a).trans h), serve_cons_none h, ih taken]
      rfl

/-- **Requests that are never served change nothing for the others.** -/
theorem serve_filter {keep : α → Bool}
    (hk : ∀ taken a, keep a = false → choose taken a = none) (taken : List β)
    (requests : List α) :
    serve choose taken (requests.filter keep) =
      ⟨(serve choose taken requests).served, (serve choose taken requests).refused.filter keep⟩ := by
  induction requests generalizing taken with
  | nil => rfl
  | cons a rest ih =>
    cases h : choose taken a with
    | some b =>
      have hkeep : keep a = true := by
        cases hka : keep a with
        | true => rfl
        | false =>
          rw [hk taken a hka] at h
          cases h
      rw [List.filter_cons_of_pos hkeep, serve_cons_some h, serve_cons_some h, ih (b :: taken)]
    | none =>
      cases hkeep : keep a with
      | true =>
        rw [List.filter_cons_of_pos hkeep, serve_cons_none h, serve_cons_none h, ih taken,
          List.filter_cons_of_pos hkeep]
      | false =>
        have hdrop : ¬ keep a = true := by simp [hkeep]
        rw [List.filter_cons_of_neg hdrop, serve_cons_none h, ih taken,
          List.filter_cons_of_neg hdrop]

/-- **Two rules that agree on the requests serve them alike.** -/
theorem serve_congr {choose' : List β → α → Option β}
    (h : ∀ a ∈ requests, ∀ taken, choose taken a = choose' taken a) (taken : List β) :
    serve choose taken requests = serve choose' taken requests := by
  induction requests generalizing taken with
  | nil => rfl
  | cons a rest ih =>
    have hrest := ih fun b hb => h b (List.mem_cons_of_mem a hb)
    have ha := h a List.mem_cons_self taken
    cases hc : choose taken a with
    | some b => rw [serve_cons_some hc, serve_cons_some (ha.symm.trans hc), hrest (b :: taken)]
    | none => rw [serve_cons_none hc, serve_cons_none (ha.symm.trans hc), hrest taken]

/-! ### A second round -/

/-- Those refused in the first round, with what it left. -/
def secondRound (choose : List β → α → Option β) (first : Outcome α β) : Outcome α β :=
  serve choose first.given first.refused

theorem rounds_perm {first : Outcome α β}
    (h : (first.served.map Prod.fst ++ first.refused).Perm requests) :
    ((first.served ++ (secondRound choose first).served).map Prod.fst ++
      (secondRound choose first).refused).Perm requests := by
  rw [List.map_append, List.append_assoc]
  exact ((serve_perm choose first.given first.refused).append_left _).trans h

theorem nodup_rounds (hf : Fair Reaches choose) {first : Outcome α β} (h : first.given.Nodup) :
    ((first.served ++ (secondRound choose first).served).map Prod.snd).Nodup := by
  rw [List.map_append]
  refine List.Nodup.append h (nodup_served hf first.given first.refused) ?_
  intro b hb hb'
  exact not_mem_taken hf hb' hb

/-! ### Kept and dropped -/

/-- **What a partial map keeps and what it drops are together what there was**, when it
leaves what `k` and `g` read alone. -/
theorem filterMap_perm {γ δ : Type} {f : α → Option γ} {k : α → δ} {g : γ → δ} (l : List α)
    (hf : ∀ a ∈ l, ∀ c, f a = some c → g c = k a) :
    ((l.filterMap f).map g ++ (l.filter fun a => (f a).isNone).map k).Perm
      (l.map k) := by
  induction l with
  | nil => exact .nil
  | cons a l ih =>
    have ih := ih fun b hb => hf b (List.mem_cons_of_mem a hb)
    cases h : f a with
    | none =>
      rw [List.filterMap_cons_none h, List.filter_cons_of_pos (by simp [h])]
      exact List.perm_middle.trans (ih.cons (k a))
    | some c =>
      rw [List.filterMap_cons_some h, List.filter_cons_of_neg (by simp [h]), List.map_cons,
        List.map_cons, hf a List.mem_cons_self c h]
      exact ih.cons (k a)

end FirstCome
