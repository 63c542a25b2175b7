import Mathlib.Data.List.Forall2
import Mathlib.Data.List.Nodup
import Mathlib.Data.List.Perm.Basic

/-!
# Posted or skipped

Items are gone through in batches.  A batch posts records, each of which names the keys
of the items it stands for, and skips items, each with a record that may name its key.

* `Accounts`: the keys a batch names, in some order.
* `Accounts.append`, `accounts_flatten`: batch after batch.
* `forall₂_of_mapM`, `exists_mapM`: a pass in which every item could have failed.
* `Accounts.count_eq_one`: if the keys are all different, each is named by exactly one
  record, posted or skipped.
* `Accounts.mem_of_count`: no record names another key.
-/

namespace Posting

variable {ε σ κ : Type*}

structure Batch (ε σ : Type*) where
  posted : List ε
  skipped : List σ

namespace Batch

/-- Nothing posted and nothing skipped. -/
def empty : Batch ε σ := ⟨[], []⟩

def append (a b : Batch ε σ) : Batch ε σ := ⟨a.posted ++ b.posted, a.skipped ++ b.skipped⟩

def flatten : List (Batch ε σ) → Batch ε σ
  | [] => empty
  | b :: rest => b.append (flatten rest)

end Batch

/-- How the records of a batch name keys. -/
structure Naming (ε σ κ : Type*) where
  ofPosted : ε → List κ
  ofSkipped : σ → Option κ

variable {naming : Naming ε σ κ} {a b : Batch ε σ} {s t : List κ}

def Naming.keys (naming : Naming ε σ κ) (b : Batch ε σ) : List κ :=
  b.posted.flatMap naming.ofPosted ++ b.skipped.filterMap naming.ofSkipped

/-- The batch names the keys of `s` and no others, each as often as `s` has it. -/
def Accounts (naming : Naming ε σ κ) (b : Batch ε σ) (s : List κ) : Prop :=
  (naming.keys b).Perm s

theorem accounts_empty : Accounts naming Batch.empty [] := List.Perm.refl _

theorem Accounts.append (ha : Accounts naming a s) (hb : Accounts naming b t) :
    Accounts naming (a.append b) (s ++ t) := by
  unfold Accounts Naming.keys Batch.append at *
  rw [List.flatMap_append, List.filterMap_append]
  refine List.Perm.trans ?_ (ha.append hb)
  have hswap := (List.perm_append_comm_assoc (b.posted.flatMap naming.ofPosted)
    (a.skipped.filterMap naming.ofSkipped) (b.skipped.filterMap naming.ofSkipped)).append_left
      (a.posted.flatMap naming.ofPosted)
  simpa only [List.append_assoc] using hswap

/-- Each item's batch accounts for the item's keys, so all of them account for all. -/
theorem accounts_flatten {α : Type*} {keysOf : α → List κ} {l : List α}
    {batches : List (Batch ε σ)}
    (h : List.Forall₂ (fun x b => Accounts naming b (keysOf x)) l batches) :
    Accounts naming (Batch.flatten batches) (l.flatMap keysOf) := by
  induction h with
  | nil => exact accounts_empty
  | cons hx _ ih =>
    rw [List.flatMap_cons]
    exact hx.append ih

theorem mem_posted_flatten {batches : List (Batch ε σ)} {e : ε} :
    e ∈ (Batch.flatten batches).posted ↔ ∃ b ∈ batches, e ∈ b.posted := by
  induction batches with
  | nil => exact ⟨fun h => absurd h List.not_mem_nil, fun ⟨_, h, _⟩ => absurd h List.not_mem_nil⟩
  | cons b rest ih => simp [Batch.flatten, Batch.append, ih]

theorem mem_skipped_flatten {batches : List (Batch ε σ)} {e : σ} :
    e ∈ (Batch.flatten batches).skipped ↔ ∃ b ∈ batches, e ∈ b.skipped := by
  induction batches with
  | nil => exact ⟨fun h => absurd h List.not_mem_nil, fun ⟨_, h, _⟩ => absurd h List.not_mem_nil⟩
  | cons b rest ih => simp [Batch.flatten, Batch.append, ih]

/-! ### Items that can fail -/

section

universe u

variable {ω α : Type*} {γ δ : Type u}

theorem bind_eq_ok {x : Except ω γ} {f : γ → Except ω δ} {b : δ} :
    x >>= f = .ok b ↔ ∃ a, x = .ok a ∧ f a = .ok b := by
  cases x with
  | error e => exact ⟨nofun, fun ⟨a, ha, _⟩ => nomatch ha⟩
  | ok a => exact ⟨fun h => ⟨a, rfl, h⟩, fun ⟨_, ha, h⟩ => by rwa [Except.ok.inj ha]⟩

theorem bind_eq_error {x : Except ω γ} {f : γ → Except ω δ} {e : ω} :
    x >>= f = .error e ↔ x = .error e ∨ ∃ a, x = .ok a ∧ f a = .error e := by
  cases x with
  | error e' => exact ⟨fun h => .inl (congrArg Except.error (Except.error.inj h)),
      fun h => h.elim (fun h => congrArg Except.error (Except.error.inj h)) fun ⟨a, ha, _⟩ =>
        nomatch ha⟩
  | ok a => exact ⟨fun h => .inr ⟨a, rfl, h⟩,
      fun h => h.elim nofun fun ⟨_, ha, h⟩ => by rwa [Except.ok.inj ha]⟩

theorem map_eq_ok {x : Except ω γ} {f : γ → δ} {b : δ} :
    x.map f = .ok b ↔ ∃ a, x = .ok a ∧ f a = b := by
  cases x with
  | error e => exact ⟨nofun, fun ⟨a, ha, _⟩ => nomatch ha⟩
  | ok a => exact ⟨fun h => ⟨a, rfl, Except.ok.inj h⟩, fun ⟨_, ha, h⟩ => by
      rw [← h, Except.ok.inj ha]
      rfl⟩

/-- **What a pass returns, its items return.** -/
theorem forall₂_of_mapM {run : α → Except ω γ} {l : List α} {results : List γ}
    (h : l.mapM run = .ok results) : List.Forall₂ (fun x b => run x = .ok b) l results := by
  induction l generalizing results with
  | nil =>
    rw [List.mapM_nil] at h
    obtain rfl := Except.ok.inj h
    exact .nil
  | cons x rest ih =>
    rw [List.mapM_cons] at h
    obtain ⟨b, hb, h⟩ := bind_eq_ok.mp h
    obtain ⟨more, hmore, h⟩ := bind_eq_ok.mp h
    obtain rfl := Except.ok.inj h
    exact .cons hb (ih hmore)

/-- A pass that computes a function when it does not fail. -/
theorem eq_map_of_mapM {run : α → Except ω γ} {f : α → γ} {l : List α} {results : List γ}
    (hrun : ∀ x b, run x = .ok b → b = f x) (h : l.mapM run = .ok results) :
    results = l.map f := by
  have hmap : List.Forall₂ (· = ·) (l.map f) results :=
    List.forall₂_map_left_iff.mpr ((forall₂_of_mapM h).imp fun x b hb => (hrun x b hb).symm)
  rw [List.forall₂_eq_eq_eq] at hmap
  exact hmap.symm

theorem exists_mapM {run : α → Except ω γ} {l : List α} (h : ∀ x ∈ l, ∃ b, run x = .ok b) :
    ∃ results, l.mapM run = .ok results := by
  induction l with
  | nil => exact ⟨[], List.mapM_nil⟩
  | cons x rest ih =>
    obtain ⟨b, hb⟩ := h x List.mem_cons_self
    obtain ⟨more, hmore⟩ := ih fun y hy => h y (List.mem_cons_of_mem _ hy)
    refine ⟨b :: more, ?_⟩
    rw [List.mapM_cons]
    exact bind_eq_ok.mpr ⟨b, hb, bind_eq_ok.mpr ⟨more, hmore, rfl⟩⟩

theorem mapM_eq_ok {run : α → Except ω γ} {f : α → γ} {l : List α}
    (h : ∀ x ∈ l, run x = .ok (f x)) : l.mapM run = .ok (l.map f) := by
  obtain ⟨results, hresults⟩ := exists_mapM fun x hx => ⟨f x, h x hx⟩
  rw [hresults]
  refine congrArg Except.ok (List.ext_getElem ?_ fun i hi hi' => ?_)
  · rw [List.length_map]
    exact (forall₂_of_mapM hresults).length_eq.symm
  · rw [List.getElem_map]
    have hrun := (forall₂_of_mapM hresults).get (by simpa using hi') hi
    exact Except.ok.inj (hrun.symm.trans (h _ (List.get_mem _ _)))

variable {R : α → γ → Prop} {l : List α} {results : List γ}

theorem exists_left (h : List.Forall₂ R l results) {b : γ} (hb : b ∈ results) :
    ∃ x ∈ l, R x b := by
  induction h with
  | nil => cases hb
  | cons hx _ ih =>
    rcases List.mem_cons.mp hb with rfl | hb
    · exact ⟨_, List.mem_cons_self, hx⟩
    · obtain ⟨x, hm, hr⟩ := ih hb
      exact ⟨x, List.mem_cons_of_mem _ hm, hr⟩

theorem exists_right (h : List.Forall₂ R l results) {x : α} (hx : x ∈ l) :
    ∃ b ∈ results, R x b := by
  induction h with
  | nil => cases hx
  | cons hr _ ih =>
    rcases List.mem_cons.mp hx with rfl | hx
    · exact ⟨_, List.mem_cons_self, hr⟩
    · obtain ⟨b, hm, hr⟩ := ih hx
      exact ⟨b, List.mem_cons_of_mem _ hm, hr⟩

end

/-! ### Each key once -/

variable [DecidableEq κ] {k : κ}

/-- The records that name a key. -/
def Naming.count (naming : Naming ε σ κ) (b : Batch ε σ) (k : κ) : Nat :=
  b.posted.countP (k ∈ naming.ofPosted ·) + b.skipped.countP (naming.ofSkipped · = some k)

theorem countP_mem_eq {f : ε → List κ} {l : List ε} (h : (l.flatMap f).Nodup) :
    l.countP (k ∈ f ·) = (l.flatMap f).count k := by
  induction l with
  | nil => rfl
  | cons x rest ih =>
    rw [List.flatMap_cons] at h ⊢
    obtain ⟨hx, hrest, -⟩ := List.nodup_append.mp h
    rw [List.countP_cons, List.count_append, ih hrest, hx.count]
    simp only [decide_eq_true_eq]
    exact Nat.add_comm _ _

theorem countP_some_eq {f : σ → Option κ} (l : List σ) :
    l.countP (f · = some k) = (l.filterMap f).count k := by
  induction l with
  | nil => rfl
  | cons x rest ih =>
    rw [List.countP_cons, ih]
    cases hx : f x with
    | none => simp [hx]
    | some j =>
      rw [List.filterMap_cons_some hx, List.count_cons]
      simp

/-- **Every key that is accounted for is named once.** -/
theorem Accounts.count_eq_one (h : Accounts naming b s) (hs : s.Nodup) (hk : k ∈ s) :
    naming.count b k = 1 := by
  have hkeys : (naming.keys b).Nodup := h.nodup_iff.mpr hs
  obtain ⟨hposted, -, -⟩ := List.nodup_append.mp hkeys
  have hcount : naming.count b k = (naming.keys b).count k := by
    rw [Naming.count, Naming.keys, List.count_append, countP_mem_eq hposted, countP_some_eq]
  rw [hcount, hkeys.count, if_pos (h.mem_iff.mpr hk)]

/-- No other key is named. -/
theorem Accounts.mem_of_count (h : Accounts naming b s) (hk : naming.count b k ≠ 0) : k ∈ s := by
  refine h.mem_iff.mp ?_
  by_contra hnot
  obtain ⟨hposted, hskipped⟩ := not_or.mp (mt List.mem_append.mpr hnot)
  refine hk ?_
  have hp : b.posted.countP (k ∈ naming.ofPosted ·) = 0 := by
    rw [List.countP_eq_zero]
    intro e he
    simpa using fun hmem => hposted (List.mem_flatMap.mpr ⟨e, he, hmem⟩)
  rw [Naming.count, hp, countP_some_eq, List.count_eq_zero_of_not_mem hskipped]

end Posting
