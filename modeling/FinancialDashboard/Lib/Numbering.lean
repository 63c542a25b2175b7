import FinancialDashboard.Lib.Dict
import Mathlib.Data.List.Count

/-!
# Numbering the elements of a key

The elements of a list are numbered from zero, those of each key for themselves: the
`occurrences[key] += 1` of so many loops.

* `nodup_number`: no two elements have the same key and number.
* `exists_number_iff`: a key has the numbers below the count of its elements.
* `number_eq_zero`: an element that is alone of its key has the number zero.

Lists that overlap are merged as multisets: a key occurs as often as in the source that has
it most often.

* `exists_overlap_iff`, `nodup_overlaps`: which occurrences there are, each of them once.
* `countP_overlaps`, `perm_overlaps`: how often a key occurs, and what that depends on.
* `mem_candidates`, `candidates_ne_nil`: what reports an occurrence.
-/

namespace Numbering

variable {α κ σ ρ : Type*} [DecidableEq κ]

/-- Each element with the number of the elements of its key before it. -/
def numberFrom (key : α → κ) (seen : List κ) : List α → List (α × ℕ)
  | [] => []
  | a :: rest => (a, seen.count (key a)) :: numberFrom key (key a :: seen) rest

def number (key : α → κ) (l : List α) : List (α × ℕ) := numberFrom key [] l

variable {key : α → κ} {seen : List κ} {l : List α} {p : α × ℕ}

theorem map_fst_numberFrom (key : α → κ) (seen : List κ) (l : List α) :
    (numberFrom key seen l).map Prod.fst = l := by
  induction l generalizing seen with
  | nil => rfl
  | cons a rest ih => rw [numberFrom, List.map_cons, ih]

@[simp] theorem map_fst_number (key : α → κ) (l : List α) : (number key l).map Prod.fst = l :=
  map_fst_numberFrom key [] l

theorem mem_of_mem_number (h : p ∈ number key l) : p.1 ∈ l := by
  have hmem := List.mem_map_of_mem (f := Prod.fst) h
  rwa [map_fst_number] at hmem

/-- The numbers of a key go on from those seen. -/
theorem bounds_numberFrom (h : p ∈ numberFrom key seen l) :
    seen.count (key p.1) ≤ p.2 ∧ p.2 < seen.count (key p.1) + l.countP (key · = key p.1) := by
  induction l generalizing seen with
  | nil => cases h
  | cons a rest ih =>
    rcases List.mem_cons.mp h with rfl | h
    · refine ⟨le_refl _, Nat.lt_add_of_pos_right ?_⟩
      exact List.countP_pos_iff.mpr ⟨a, List.mem_cons_self, decide_eq_true rfl⟩
    · obtain ⟨hlow, hhigh⟩ := ih h
      rw [List.count_cons] at hlow hhigh
      rw [List.countP_cons]
      by_cases hkey : key a = key p.1
      · simp only [hkey, beq_self_eq_true, decide_true, if_true] at hlow hhigh ⊢
        omega
      · simp only [beq_iff_eq, hkey, decide_eq_true_eq, if_false] at hlow hhigh ⊢
        omega

/-- **No two elements have the same key and number.** -/
theorem nodup_numberFrom (key : α → κ) (seen : List κ) (l : List α) :
    ((numberFrom key seen l).map fun p => (key p.1, p.2)).Nodup := by
  induction l generalizing seen with
  | nil => exact List.nodup_nil
  | cons a rest ih =>
    rw [numberFrom, List.map_cons, List.nodup_cons]
    refine ⟨fun h => ?_, ih _⟩
    obtain ⟨p, hp, heq⟩ := List.mem_map.mp h
    obtain ⟨hkey, hnumber⟩ := Prod.mk.inj heq
    have hlow := (bounds_numberFrom hp).1
    rw [hkey, List.count_cons_self] at hlow
    dsimp only at hlow hnumber
    omega

theorem nodup_number (key : α → κ) (l : List α) :
    ((number key l).map fun p => (key p.1, p.2)).Nodup := nodup_numberFrom key [] l

/-- A key has all the numbers below the count of its elements. -/
theorem exists_numberFrom {k : κ} {n : ℕ} (hlow : seen.count k ≤ n)
    (hhigh : n < seen.count k + l.countP (key · = k)) :
    ∃ p ∈ numberFrom key seen l, key p.1 = k ∧ p.2 = n := by
  induction l generalizing seen with
  | nil =>
    rw [List.countP_nil] at hhigh
    omega
  | cons a rest ih =>
    rw [List.countP_cons] at hhigh
    by_cases hkey : key a = k
    · subst hkey
      rw [if_pos (decide_eq_true rfl)] at hhigh
      rcases hlow.eq_or_lt with heq | hlt
      · exact ⟨_, List.mem_cons_self, rfl, heq⟩
      · have hcount := List.count_cons_self (a := key a) (l := seen)
        obtain ⟨p, hp, hpair⟩ := @ih (key a :: seen) (by omega) (by omega)
        exact ⟨p, List.mem_cons_of_mem _ hp, hpair⟩
    · rw [if_neg (by simpa using hkey)] at hhigh
      have hcount := List.count_cons_of_ne (l := seen) hkey
      obtain ⟨p, hp, hpair⟩ := @ih (key a :: seen) (by omega) (by omega)
      exact ⟨p, List.mem_cons_of_mem _ hp, hpair⟩

theorem exists_number_iff {k : κ} {n : ℕ} :
    (∃ p ∈ number key l, key p.1 = k ∧ p.2 = n) ↔ n < l.countP (key · = k) := by
  constructor
  · rintro ⟨p, hp, rfl, rfl⟩
    have hhigh := (bounds_numberFrom hp).2
    rwa [List.count_nil, Nat.zero_add] at hhigh
  · intro hn
    exact exists_numberFrom (Nat.zero_le _) (by rwa [List.count_nil, Nat.zero_add])

/-- Numbering goes by the keys, whatever else there is. -/
theorem map_numberFrom {β : Type*} (f : β → α) (key : α → κ) (seen : List κ) (l : List β) :
    (numberFrom (fun b => key (f b)) seen l).map (fun p => (f p.1, p.2)) =
      numberFrom key seen (l.map f) := by
  induction l generalizing seen with
  | nil => rfl
  | cons b rest ih => rw [numberFrom, List.map_cons, ih, List.map_cons, numberFrom]

theorem map_number {β : Type*} (f : β → α) (key : α → κ) (l : List β) :
    (number (fun b => key (f b)) l).map (fun p => (f p.1, p.2)) = number key (l.map f) :=
  map_numberFrom f key [] l

theorem number_lt (h : p ∈ number key l) : p.2 < l.countP (key · = key p.1) :=
  exists_number_iff.mp ⟨p, h, rfl, rfl⟩

/-- **An element that is alone of its key has the number zero.** -/
theorem number_eq_zero (h : p ∈ number key l) (halone : l.countP (key · = key p.1) ≤ 1) :
    p.2 = 0 := by
  have hlt := number_lt h
  omega

/-! ### Overlapping sources -/

/-- The keys of the elements, in the order in which they come. -/
def keysOf (key : α → κ) (l : List α) : List κ := (l.map key).eraseDups

theorem mem_keysOf {k : κ} : k ∈ keysOf key l ↔ ∃ a ∈ l, key a = k := by
  rw [keysOf, List.mem_eraseDups, List.mem_map]

theorem keysOf_concat (key : α → κ) (l : List α) (a : α) :
    keysOf key (l ++ [a]) = keysOf key l ++ if key a ∈ l.map key then [] else [key a] := by
  rw [keysOf, List.map_append, List.eraseDups_append]
  refine congrArg (keysOf key l ++ ·) ?_
  rw [List.map_singleton, List.removeAll, List.filter_singleton, List.elem_eq_mem]
  by_cases ha : key a ∈ l.map key
  · rw [if_pos ha, decide_eq_true ha]
    rfl
  · rw [if_neg ha, decide_eq_false ha]
    rfl

theorem nodup_keysOf (key : α → κ) (l : List α) : (keysOf key l).Nodup := by
  induction l using List.reverseRecOn with
  | nil => exact List.nodup_nil
  | append_singleton l a ih =>
    rw [keysOf_concat]
    split_ifs with ha
    · rwa [List.append_nil]
    · refine List.Nodup.append ih (List.nodup_singleton _) fun k hk hk' => ha ?_
      rw [List.mem_singleton] at hk'
      exact hk' ▸ List.mem_eraseDups.mp hk

/-- An occurrence of a key, and what reports it: at most one element of each source. -/
structure Overlap (κ α : Type*) where
  key : κ
  occurrence : ℕ
  candidates : List α

section

variable [DecidableEq σ] (key : α → κ) (source : α → σ) (order : List α → List α) (l : List α)

/-- The elements of a key, those of each source in their order. -/
def bySource (members : List α) : List (List α) :=
  (Dict.groups source (keysOf source members) members).map fun g => order g.2

/-- The length of the longest. -/
def multiplicity (lists : List (List α)) : ℕ := (lists.map List.length).foldr max 0

/-- **The occurrences of each key**, as many as in the source that has most of them. -/
def overlaps : List (Overlap κ α) :=
  (Dict.groups key (keysOf key l) l).flatMap fun group =>
    let lists := bySource source order group.2
    (List.range (multiplicity lists)).map fun n => ⟨group.1, n, lists.filterMap (·[n]?)⟩

variable {key source order l}

theorem lt_foldr_max {counts : List ℕ} {n : ℕ} : n < counts.foldr max 0 ↔ ∃ c ∈ counts, n < c := by
  induction counts with
  | nil => exact iff_of_false (Nat.not_lt_zero n) fun ⟨_, h, _⟩ => nomatch h
  | cons c rest ih =>
    rw [List.foldr_cons, lt_max_iff, List.exists_mem_cons_iff]
    exact or_congr_right ih

omit [DecidableEq κ] [DecidableEq σ] in
theorem lt_multiplicity {lists : List (List α)} {n : ℕ} :
    n < multiplicity lists ↔ ∃ list ∈ lists, n < list.length := by
  rw [multiplicity, lt_foldr_max]
  simp only [List.mem_map, exists_exists_and_eq_and]

theorem mem_overlaps {o : Overlap κ α} :
    o ∈ overlaps key source order l ↔ ∃ k ∈ keysOf key l, ∃ n,
      n < multiplicity (bySource source order (l.filter (key · = k))) ∧
      o = ⟨k, n, (bySource source order (l.filter (key · = k))).filterMap (·[n]?)⟩ := by
  simp only [overlaps, Dict.groups, List.mem_flatMap, List.mem_map, List.mem_range]
  constructor
  · rintro ⟨_, ⟨k, hk, rfl⟩, n, hn, rfl⟩
    exact ⟨k, hk, n, hn, rfl⟩
  · rintro ⟨k, hk, n, hn, rfl⟩
    exact ⟨_, ⟨k, hk, rfl⟩, n, hn, rfl⟩

theorem mem_bySource {members list : List α} :
    list ∈ bySource source order members ↔
      ∃ s ∈ keysOf source members, list = order (members.filter (source · = s)) := by
  simp only [bySource, Dict.groups, List.map_map, List.mem_map, Function.comp_apply]
  exact exists_congr fun s => and_congr_right fun _ => eq_comm

/-- **No key has the same occurrence twice.** -/
theorem nodup_overlaps :
    ((overlaps key source order l).map fun o => (o.key, o.occurrence)).Nodup := by
  rw [overlaps, List.map_flatMap, Dict.groups, List.flatMap_map, List.nodup_flatMap]
  constructor
  · intro k _
    rw [List.map_map]
    exact List.nodup_range.map fun m n h => (Prod.mk.inj h).2
  · refine (nodup_keysOf key l).imp fun hne => ?_
    intro p hp hp'
    simp only [List.map_map, List.mem_map, Function.comp_apply] at hp hp'
    obtain ⟨m, -, rfl⟩ := hp
    obtain ⟨n, -, heq⟩ := hp'
    exact hne (Prod.mk.inj heq).1.symm

variable (horder : ∀ members, (order members).Perm members)

include horder

/-- **Which occurrences there are.** -/
theorem exists_overlap_iff {k : κ} {n : ℕ} :
    (∃ o ∈ overlaps key source order l, o.key = k ∧ o.occurrence = n) ↔
      ∃ s, n < (l.filter (key · = k)).countP (source · = s) := by
  have hlength : ∀ s, (order ((l.filter (key · = k)).filter (source · = s))).length =
      (l.filter (key · = k)).countP (source · = s) := by
    intro s
    rw [(horder _).length_eq, List.countP_eq_length_filter]
  constructor
  · rintro ⟨o, ho, rfl, rfl⟩
    obtain ⟨k, -, n, hn, rfl⟩ := mem_overlaps.mp ho
    obtain ⟨list, hlist, hlt⟩ := lt_multiplicity.mp hn
    obtain ⟨s, -, rfl⟩ := mem_bySource.mp hlist
    exact ⟨s, hlength s ▸ hlt⟩
  · rintro ⟨s, hs⟩
    obtain ⟨a, ha, hsource⟩ := List.countP_pos_iff.mp (Nat.zero_lt_of_lt hs)
    have hkey := List.mem_filter.mp ha
    have hmem : k ∈ keysOf key l := mem_keysOf.mpr ⟨a, hkey.1, of_decide_eq_true hkey.2⟩
    have hlist : order ((l.filter (key · = k)).filter (source · = s)) ∈
        bySource source order (l.filter (key · = k)) :=
      mem_bySource.mpr ⟨s, mem_keysOf.mpr ⟨a, ha, of_decide_eq_true hsource⟩, rfl⟩
    have hlt := lt_multiplicity.mpr ⟨_, hlist, (hlength s).symm ▸ hs⟩
    exact ⟨_, mem_overlaps.mpr ⟨k, hmem, n, hlt, rfl⟩, rfl, rfl⟩

/-- **How often a key occurs**: as often as its numbers go. -/
theorem countP_overlaps {k : κ} {m : ℕ}
    (h : ∀ n, (∃ s, n < (l.filter (key · = k)).countP (source · = s)) ↔ n < m) :
    (overlaps key source order l).countP (·.key = k) = m := by
  have hnodup : (((overlaps key source order l).filter (·.key = k)).map (·.occurrence)).Nodup := by
    have hpairs : (((overlaps key source order l).filter (·.key = k)).map
        fun o => (o.key, o.occurrence)).Nodup := nodup_overlaps.sublist (List.filter_sublist.map _)
    refine List.Nodup.of_map (fun n => (k, n)) ?_
    rw [List.map_map]
    have hsame : ((overlaps key source order l).filter (·.key = k)).map
        ((fun n => (k, n)) ∘ fun o => o.occurrence) =
        ((overlaps key source order l).filter (·.key = k)).map fun o => (o.key, o.occurrence) :=
      List.map_congr_left fun o ho => by
        rw [Function.comp_apply, of_decide_eq_true (List.mem_filter.mp ho).2]
    rw [hsame]
    exact hpairs
  have hmem : ∀ n, n ∈ ((overlaps key source order l).filter (·.key = k)).map (·.occurrence) ↔
      n ∈ List.range m := by
    intro n
    rw [List.mem_range, ← h n, ← exists_overlap_iff horder]
    simp only [List.mem_map, List.mem_filter, decide_eq_true_eq, and_assoc]
  rw [List.countP_eq_length_filter, ← List.length_map (·.occurrence),
    ((List.perm_ext_iff_of_nodup hnodup List.nodup_range).mpr hmem).length_eq, List.length_range]

/-- The occurrences depend on nothing but how often each source has each key. -/
theorem perm_overlaps {τ β : Type*} [DecidableEq τ] {key' : β → κ} {source' : β → τ}
    {order' : List β → List β} (horder' : ∀ members, (order' members).Perm members) {l' : List β}
    (h : ∀ k n, (∃ s, n < (l.filter (key · = k)).countP (source · = s)) ↔
      ∃ s, n < (l'.filter (key' · = k)).countP (source' · = s)) :
    ((overlaps key source order l).map fun o => (o.key, o.occurrence)).Perm
      ((overlaps key' source' order' l').map fun o => (o.key, o.occurrence)) := by
  refine (List.perm_ext_iff_of_nodup nodup_overlaps nodup_overlaps).mpr fun p => ?_
  have hmem : (∃ o ∈ overlaps key source order l, o.key = p.1 ∧ o.occurrence = p.2) ↔
      ∃ o ∈ overlaps key' source' order' l', o.key = p.1 ∧ o.occurrence = p.2 :=
    (exists_overlap_iff horder).trans ((h p.1 p.2).trans (exists_overlap_iff horder').symm)
  simpa only [List.mem_map, Prod.ext_iff] using hmem

theorem mem_candidates {o : Overlap κ α} (ho : o ∈ overlaps key source order l) {a : α}
    (ha : a ∈ o.candidates) : a ∈ l ∧ key a = o.key := by
  obtain ⟨k, -, n, -, rfl⟩ := mem_overlaps.mp ho
  obtain ⟨list, hlist, hget⟩ := List.mem_filterMap.mp ha
  obtain ⟨s, -, rfl⟩ := mem_bySource.mp hlist
  have hmem := (horder _).mem_iff.mp (List.mem_of_getElem? hget)
  obtain ⟨hmem, hkey⟩ := List.mem_filter.mp (List.mem_filter.mp hmem).1
  exact ⟨hmem, of_decide_eq_true hkey⟩

omit horder in
theorem candidates_ne_nil {o : Overlap κ α} (ho : o ∈ overlaps key source order l) :
    o.candidates ≠ [] := by
  obtain ⟨k, -, n, hn, rfl⟩ := mem_overlaps.mp ho
  obtain ⟨list, hlist, hlt⟩ := lt_multiplicity.mp hn
  exact List.ne_nil_of_mem (List.mem_filterMap.mpr ⟨list, hlist, List.getElem?_eq_getElem hlt⟩)

end

end Numbering
