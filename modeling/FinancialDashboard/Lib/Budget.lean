import Mathlib.Data.List.Basic
import Mathlib.Data.Multiset.UnionInter

/-!
# Spending a budget of keys

Items are gone through, and one whose key is still in the budget is accepted and takes the
key out of it; the others are rejected, and so are the items without a key.

* `keys_accepted`: the accepted keys are those that the items and the budget have in common.
* `perm_accepted_rejected`: each item is accepted or rejected.
* `rejected_eq_nil_iff`: when nothing is rejected.
* `length_rejected_of_perm`: the order of the items does not matter for how many are rejected.
-/

namespace Budget

variable {ι κ : Type*} [DecidableEq κ]

/-- The accepted and the rejected items. -/
def spend (key : ι → Option κ) : Multiset κ → List ι → List ι × List ι
  | _, [] => ([], [])
  | budget, item :: rest =>
    match (key item).filter (· ∈ budget) with
    | some k =>
      let later := spend key (budget.erase k) rest
      (item :: later.1, later.2)
    | none =>
      let later := spend key budget rest
      (later.1, item :: later.2)

variable {key : ι → Option κ} {budget : Multiset κ} {items other : List ι} {item : ι} {k : κ}

theorem spend_of_mem (hkey : key item = some k) (hk : k ∈ budget) :
    spend key budget (item :: items) =
      (item :: (spend key (budget.erase k) items).1, (spend key (budget.erase k) items).2) := by
  have hfilter : (key item).filter (· ∈ budget) = some k := by simp [hkey, hk]
  rw [spend, hfilter]

theorem spend_of_not_mem (h : ∀ k ∈ key item, k ∉ budget) :
    spend key budget (item :: items) =
      ((spend key budget items).1, item :: (spend key budget items).2) := by
  have hfilter : (key item).filter (· ∈ budget) = none := by
    simpa [Option.filter_eq_none_iff] using h
  rw [spend, hfilter]

/-- Either an item's key is in the budget or the item is rejected. -/
theorem key_cases (key : ι → Option κ) (budget : Multiset κ) (item : ι) :
    (∃ k ∈ budget, key item = some k) ∨ ∀ k ∈ key item, k ∉ budget := by
  cases hkey : key item with
  | none => exact .inr fun k hk => absurd hk (by simp)
  | some k =>
    by_cases hk : k ∈ budget
    · exact .inl ⟨k, hk, rfl⟩
    · exact .inr fun j hj => Option.mem_some.mp hj ▸ hk

/-- **Each item is accepted or rejected.** -/
theorem perm_accepted_rejected (key : ι → Option κ) (budget : Multiset κ) (items : List ι) :
    ((spend key budget items).1 ++ (spend key budget items).2).Perm items := by
  induction items generalizing budget with
  | nil => exact List.Perm.refl _
  | cons item rest ih =>
    rcases key_cases key budget item with ⟨k, hk, hkey⟩ | hnot
    · rw [spend_of_mem hkey hk, List.cons_append]
      exact (ih _).cons item
    · rw [spend_of_not_mem hnot]
      exact List.perm_middle.trans ((ih budget).cons item)

theorem isSome_of_accepted (h : item ∈ (spend key budget items).1) : (key item).isSome := by
  induction items generalizing budget with
  | nil => cases h
  | cons first rest ih =>
    rcases key_cases key budget first with ⟨k, hk, hkey⟩ | hnot
    · rw [spend_of_mem hkey hk] at h
      rcases List.mem_cons.mp h with rfl | h
      · rw [hkey]
        rfl
      · exact ih h
    · rw [spend_of_not_mem hnot] at h
      exact ih h

/-- **The accepted keys are the common ones**, each as often as both have it. -/
theorem keys_accepted (key : ι → Option κ) (budget : Multiset κ) (items : List ι) :
    ((spend key budget items).1.filterMap key : Multiset κ) =
      (items.filterMap key : Multiset κ) ∩ budget := by
  induction items generalizing budget with
  | nil => exact (Multiset.zero_inter budget).symm
  | cons item rest ih =>
    rcases key_cases key budget item with ⟨k, hk, hkey⟩ | hnot
    · rw [spend_of_mem hkey hk, List.filterMap_cons_some hkey, List.filterMap_cons_some hkey,
        ← Multiset.cons_coe, ← Multiset.cons_coe, Multiset.cons_inter_of_pos _ hk, ih]
    · rw [spend_of_not_mem hnot]
      cases hkey : key item with
      | none => rw [List.filterMap_cons_none hkey, ih]
      | some k =>
        rw [List.filterMap_cons_some hkey, ← Multiset.cons_coe,
          Multiset.cons_inter_of_neg _ (hnot k hkey), ih]

/-- As many are accepted as there are common keys. -/
theorem length_accepted (key : ι → Option κ) (budget : Multiset κ) (items : List ι) :
    (spend key budget items).1.length = ((items.filterMap key : Multiset κ) ∩ budget).card := by
  rw [← keys_accepted, Multiset.coe_card, List.length_filterMap_eq_countP,
    List.countP_eq_length.mpr fun item => isSome_of_accepted]

theorem length_add_length (key : ι → Option κ) (budget : Multiset κ) (items : List ι) :
    (spend key budget items).1.length + (spend key budget items).2.length = items.length := by
  rw [← List.length_append, (perm_accepted_rejected key budget items).length_eq]

theorem length_accepted_of_perm (h : items.Perm other) :
    (spend key budget items).1.length = (spend key budget other).1.length := by
  rw [length_accepted, length_accepted, Multiset.coe_eq_coe.mpr (h.filterMap key)]

/-- The order of the items does not matter for how many are rejected. -/
theorem length_rejected_of_perm (h : items.Perm other) :
    (spend key budget items).2.length = (spend key budget other).2.length := by
  have hitems := length_add_length key budget items
  have hother := length_add_length key budget other
  have haccepted : (spend key budget items).1.length = (spend key budget other).1.length :=
    length_accepted_of_perm h
  have hlength := h.length_eq
  omega

/-- **Nothing is rejected** if and only if all items have keys and the budget has these keys. -/
theorem rejected_eq_nil_iff : (spend key budget items).2 = [] ↔
    (∀ item ∈ items, (key item).isSome) ∧ (items.filterMap key : Multiset κ) ≤ budget := by
  have hperm := perm_accepted_rejected key budget items
  constructor
  · intro hnil
    rw [hnil, List.append_nil] at hperm
    refine ⟨fun item hitem => isSome_of_accepted (hperm.mem_iff.mpr hitem), ?_⟩
    rw [← Multiset.coe_eq_coe.mpr (hperm.filterMap key), keys_accepted]
    exact Multiset.inter_le_right
  · rintro ⟨hkeys, hle⟩
    have haccepted := length_accepted key budget items
    rw [le_antisymm Multiset.inter_le_left (Multiset.le_inter (le_refl _) hle), Multiset.coe_card,
      List.length_filterMap_eq_countP,
      List.countP_eq_length.mpr hkeys] at haccepted
    have htotal := length_add_length key budget items
    exact List.length_eq_zero_iff.mp (by omega)

end Budget
