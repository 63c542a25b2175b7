import Mathlib.Data.List.Induction
import Mathlib.Data.List.Nodup
import Mathlib.Order.Lattice

/-!
# Dictionaries in insertion order

A dictionary whose items keep the order in which their keys first came: assigning
to a key that is there keeps its place, assigning to a new one appends.  That no
key comes twice is a field, so `get?` may be read off the items in either
direction (`mem_items_iff`).

* `get?_set`, `get?_pop`: what an assignment and a removal do to each key.
* `size_set_le`, `size_pop_lt`: what they do to the number of keys.
* `collect` gathers values under their keys.  `getD_collect`: what is under each.
* `classes` gathers values under a key of each.  `perm_flatten_classes`: they are a partition.
* `fill` assigns one pair after the other (`get?_fill_iff`), `filterMap` is a comprehension
  (`get?_filterMap`), `update` writes one dictionary over another (`get?_update`).
* `oldest?` is the loop that looks for the first item of the least rank;
  `exists_oldest?`: it finds a key of the dictionary unless there is none.
* `setLeast` keeps the least value of a key.  `exists_get?_foldl_setLeast`: nothing that came
  is below what is kept.
-/

/-- The items in the order their keys were first assigned. -/
structure OrderedDict (κ α : Type*) where
  items : List (κ × α)
  nodup : (items.map Prod.fst).Nodup

namespace OrderedDict

variable {κ α ρ : Type*} [DecidableEq κ]

instance : EmptyCollection (OrderedDict κ α) := ⟨⟨[], List.nodup_nil⟩⟩

def keys (d : OrderedDict κ α) : List κ := d.items.map Prod.fst

def size (d : OrderedDict κ α) : ℕ := d.items.length

def get? (d : OrderedDict κ α) (k : κ) : Option α :=
  (d.items.find? fun i => i.1 = k).map Prod.snd

/-- `items` with the value at `k` replaced. -/
def assign (k : κ) (v : α) (items : List (κ × α)) : List (κ × α) :=
  items.map fun i => if i.1 = k then (k, v) else i

theorem keys_assign (k : κ) (v : α) (items : List (κ × α)) :
    (assign k v items).map Prod.fst = items.map Prod.fst := by
  induction items with
  | nil => rfl
  | cons i items ih =>
    have hi : (if i.1 = k then (k, v) else i).1 = i.1 := by
      split_ifs with h
      · exact h.symm
      · rfl
    show _ :: _ = _ :: _
    rw [hi]
    exact congrArg _ ih

/-- `d[k] = v`. -/
def set (d : OrderedDict κ α) (k : κ) (v : α) : OrderedDict κ α :=
  if h : k ∈ d.keys then
    ⟨assign k v d.items, (keys_assign k v d.items).symm ▸ d.nodup⟩
  else
    ⟨d.items ++ [(k, v)], by
      rw [List.map_append]
      exact List.Nodup.append d.nodup (List.nodup_singleton k) (by simpa [keys] using h)⟩

/-- `d.pop(k, None)`. -/
def pop (d : OrderedDict κ α) (k : κ) : OrderedDict κ α :=
  ⟨d.items.filter fun i => i.1 ≠ k, d.nodup.sublist (List.filter_sublist.map _)⟩

variable {d : OrderedDict κ α} {j k : κ} {v : α}

@[simp] theorem get?_empty : (∅ : OrderedDict κ α).get? k = none := rfl

omit [DecidableEq κ] in
@[simp] theorem size_empty : (∅ : OrderedDict κ α).size = 0 := rfl

theorem mem_items_iff : (k, v) ∈ d.items ↔ d.get? k = some v := by
  constructor
  · intro h
    obtain ⟨i, hi⟩ : ∃ i, d.items.find? (fun i => i.1 = k) = some i :=
      Option.isSome_iff_exists.mp (List.find?_isSome.mpr ⟨(k, v), h, by simp⟩)
    have hk : i.1 = k := by simpa using List.find?_some hi
    have heq : i = (k, v) :=
      List.inj_on_of_nodup_map d.nodup (List.mem_of_find?_eq_some hi) h hk
    rw [get?, hi, heq]
    rfl
  · intro h
    obtain ⟨i, hi, rfl⟩ := Option.map_eq_some_iff.mp h
    have hk : i.1 = k := by simpa using List.find?_some hi
    exact hk ▸ List.mem_of_find?_eq_some hi

theorem mem_keys_iff : k ∈ d.keys ↔ d.get? k ≠ none := by
  constructor
  · intro h
    obtain ⟨i, hi, rfl⟩ := List.mem_map.mp h
    rw [mem_items_iff.mp hi]
    exact Option.some_ne_none _
  · intro h
    obtain ⟨v, hv⟩ := Option.ne_none_iff_exists'.mp h
    exact List.mem_map.mpr ⟨_, mem_items_iff.mpr hv, rfl⟩

/-- Two dictionaries with the same items at `k` have the same value there. -/
theorem get?_eq_of_forall {d' : OrderedDict κ α}
    (h : ∀ v, (k, v) ∈ d.items ↔ (k, v) ∈ d'.items) : d.get? k = d'.get? k :=
  Option.ext fun v => by rw [← mem_items_iff, ← mem_items_iff, h]

theorem get?_set_self : (d.set k v).get? k = some v := by
  refine mem_items_iff.mp ?_
  unfold set
  split_ifs with h
  · obtain ⟨i, hi, hk⟩ := List.mem_map.mp h
    exact List.mem_map.mpr ⟨i, hi, if_pos hk⟩
  · exact List.mem_append_right _ List.mem_cons_self

theorem get?_set_of_ne (h : j ≠ k) : (d.set k v).get? j = d.get? j := by
  refine get?_eq_of_forall fun w => ?_
  unfold set
  split_ifs
  · simp only [assign, List.mem_map]
    constructor
    · rintro ⟨i, hi, heq⟩
      split_ifs at heq with hk
      · exact absurd (congrArg Prod.fst heq).symm h
      · exact heq ▸ hi
    · exact fun hi => ⟨_, hi, if_neg h⟩
  · simp [h]

theorem get?_set : (d.set k v).get? j = if j = k then some v else d.get? j := by
  split_ifs with h
  · rw [h, get?_set_self]
  · exact get?_set_of_ne h

theorem get?_pop_self : (d.pop k).get? k = none := by
  by_contra h
  obtain ⟨v, hv⟩ := Option.ne_none_iff_exists'.mp h
  have := mem_items_iff.mpr hv
  simp [pop] at this

theorem get?_pop_of_ne (h : j ≠ k) : (d.pop k).get? j = d.get? j :=
  get?_eq_of_forall fun w => by simp [pop, h]

theorem get?_pop : (d.pop k).get? j = if j = k then none else d.get? j := by
  split_ifs with h
  · rw [h, get?_pop_self]
  · exact get?_pop_of_ne h

/-- What a removal leaves was there. -/
theorem get?_of_get?_pop (h : (d.pop k).get? j = some v) : d.get? j = some v := by
  rw [get?_pop] at h
  split_ifs at h
  exact h

theorem size_set_le : (d.set k v).size ≤ d.size + 1 := by
  unfold set size
  split_ifs
  · simp [assign]
  · simp

theorem size_pop_le : (d.pop k).size ≤ d.size :=
  List.length_filter_le _ _

theorem size_pop_lt (h : d.get? k ≠ none) : (d.pop k).size < d.size := by
  obtain ⟨v, hv⟩ := Option.ne_none_iff_exists'.mp h
  refine List.length_filter_lt_length_iff_exists.mpr ⟨(k, v), mem_items_iff.mpr hv, ?_⟩
  simp

/-! ### Lists under their keys -/

/-- `d.setdefault(k, []).append(a)`. -/
def push (d : OrderedDict κ (List α)) (p : κ × α) : OrderedDict κ (List α) :=
  d.set p.1 ((d.get? p.1).getD [] ++ [p.2])

/-- The values under their keys, the keys as they first came. -/
def collect (pairs : List (κ × α)) : OrderedDict κ (List α) := pairs.foldl push ∅

theorem getD_push {d : OrderedDict κ (List α)} (p : κ × α) (k : κ) :
    ((d.push p).get? k).getD [] =
      (d.get? k).getD [] ++ if p.1 = k then [p.2] else [] := by
  unfold push
  rw [get?_set]
  by_cases h : k = p.1
  · rw [if_pos h, if_pos h.symm, h]
    rfl
  · rw [if_neg h, if_neg (Ne.symm h), List.append_nil]

/-- **What is under a key is what came with it, in that order.** -/
theorem getD_collect (pairs : List (κ × α)) (k : κ) :
    ((collect pairs).get? k).getD [] = (pairs.filter (·.1 = k)).map Prod.snd := by
  induction pairs using List.reverseRecOn with
  | nil => rfl
  | append_singleton pairs p ih =>
    have hlast : collect (pairs ++ [p]) = (collect pairs).push p := List.foldl_concat _ _ _ _
    rw [hlast, getD_push, ih, List.filter_append, List.map_append]
    by_cases h : p.1 = k
    · simp [h]
    · simp [h]

theorem mem_keys_set : j ∈ (d.set k v).keys ↔ j = k ∨ j ∈ d.keys := by
  rw [mem_keys_iff, mem_keys_iff, get?_set]
  by_cases h : j = k
  · simp [h]
  · simp [h]

/-- The keys of a collection are the keys that came. -/
theorem mem_keys_collect {pairs : List (κ × α)} :
    k ∈ (collect pairs).keys ↔ ∃ a, (k, a) ∈ pairs := by
  induction pairs using List.reverseRecOn with
  | nil => simp [collect, keys, EmptyCollection.emptyCollection]
  | append_singleton pairs p ih =>
    have hlast : collect (pairs ++ [p]) = (collect pairs).push p := List.foldl_concat _ _ _ _
    rw [hlast, push, mem_keys_set, ih]
    constructor
    · rintro (rfl | ⟨a, ha⟩)
      · exact ⟨p.2, by simp⟩
      · exact ⟨a, List.mem_append_left _ ha⟩
    · rintro ⟨a, ha⟩
      rcases List.mem_append.mp ha with ha | ha
      · exact .inr ⟨a, ha⟩
      · exact .inl (congrArg Prod.fst (List.mem_singleton.mp ha))

/-- An item of a collection is a key with what came with it. -/
theorem mem_items_collect {pairs : List (κ × α)} {l : List α} (h : (k, l) ∈ (collect pairs).items) :
    l = (pairs.filter (·.1 = k)).map Prod.snd := by
  rw [← getD_collect, mem_items_iff.mp h]
  rfl

theorem forall_items_collect {pairs : List (κ × α)} {P : κ → Prop} :
    (∀ i ∈ (collect pairs).items, P i.1) ↔ ∀ p ∈ pairs, P p.1 := by
  constructor
  · intro h p hp
    have hkey : p.1 ∈ (collect pairs).keys := mem_keys_collect.mpr ⟨p.2, hp⟩
    obtain ⟨i, hi, heq⟩ := List.mem_map.mp hkey
    exact heq ▸ h i hi
  · intro h i hi
    obtain ⟨a, ha⟩ := mem_keys_collect.mp (List.mem_map_of_mem (f := Prod.fst) hi)
    exact h _ ha

/-- **Nothing is lost under the keys.** -/
theorem exists_item_collect (pairs : List (κ × α)) {P : κ → Prop} {a : α} :
    (∃ i ∈ (collect pairs).items, a ∈ i.2 ∧ P i.1) ↔ ∃ k, (k, a) ∈ pairs ∧ P k := by
  constructor
  · rintro ⟨⟨k, l⟩, hi, ha, hk⟩
    have ha : a ∈ l := ha
    rw [mem_items_collect hi] at ha
    obtain ⟨p, hp, rfl⟩ := List.mem_map.mp ha
    obtain ⟨hmem, hkey⟩ := List.mem_filter.mp hp
    exact ⟨p.1, hmem, of_decide_eq_true hkey ▸ hk⟩
  · rintro ⟨k, hp, hk⟩
    obtain ⟨⟨k', l⟩, hi, rfl⟩ := List.mem_map.mp (mem_keys_collect.mpr ⟨a, hp⟩)
    refine ⟨(k', l), hi, ?_, hk⟩
    have hl := mem_items_collect hi
    show a ∈ l
    rw [hl]
    exact List.mem_map.mpr ⟨(k', a), by simpa using hp, rfl⟩

/-- The values with one key together. -/
def classes (key : α → κ) (l : List α) : List (List α) :=
  (collect (l.map fun a => (key a, a))).items.map (·.2)

theorem mem_classes {key : α → κ} {l c : List α} :
    c ∈ classes key l ↔ ∃ b ∈ l, c = l.filter (key · = key b) := by
  have hclass : ∀ k, ((l.map fun a => (key a, a)).filter (·.1 = k)).map Prod.snd =
      l.filter (key · = k) := by
    intro k
    rw [List.filter_map, List.map_map]
    exact List.map_id _
  unfold classes
  rw [List.mem_map]
  constructor
  · rintro ⟨⟨k, c⟩, hitem, rfl⟩
    obtain ⟨a, ha⟩ := mem_keys_collect.mp (List.mem_map_of_mem (f := Prod.fst) hitem)
    obtain ⟨b, hb, heq⟩ := List.mem_map.mp ha
    obtain rfl : key b = k := congrArg Prod.fst heq
    exact ⟨b, hb, (mem_items_collect hitem).trans (hclass _)⟩
  · rintro ⟨b, hb, rfl⟩
    obtain ⟨⟨k, c⟩, hitem, rfl⟩ := List.mem_map.mp (mem_keys_collect.mpr
      ⟨b, List.mem_map_of_mem (f := fun a => (key a, a)) hb⟩)
    exact ⟨(key b, c), hitem, (mem_items_collect hitem).trans (hclass _)⟩

theorem nil_notMem_classes (key : α → κ) (l : List α) : [] ∉ classes key l := by
  intro hnil
  obtain ⟨b, hb, hclass⟩ := mem_classes.mp hnil
  have hmem : b ∈ l.filter (key · = key b) := List.mem_filter.mpr ⟨hb, decide_eq_true rfl⟩
  rw [← hclass] at hmem
  exact absurd hmem List.not_mem_nil

/-- Values of different classes have different keys. -/
theorem pairwise_classes (key : α → κ) (l : List α) :
    (classes key l).Pairwise fun c c' => ∀ a ∈ c, ∀ b ∈ c', key a ≠ key b := by
  set d := collect (l.map fun a => (key a, a)) with hd
  have hkey : ∀ item ∈ d.items, ∀ a ∈ item.2, key a = item.1 := by
    rintro ⟨k, c⟩ hitem a ha
    have ha : a ∈ c := ha
    rw [mem_items_collect hitem] at ha
    obtain ⟨p, hp, rfl⟩ := List.mem_map.mp ha
    obtain ⟨hmem, hk⟩ := List.mem_filter.mp hp
    obtain ⟨b, -, rfl⟩ := List.mem_map.mp hmem
    exact of_decide_eq_true hk
  have hapart : d.items.Pairwise fun item item' => item.1 ≠ item'.1 :=
    List.pairwise_map.mp d.nodup
  refine List.pairwise_map.mpr (hapart.imp_of_mem fun hi hi' hne a ha b hb heq => hne ?_)
  rw [← hkey _ hi a ha, heq, hkey _ hi' b hb]

/-- **The classes are a partition.** -/
theorem perm_flatten_classes (key : α → κ) {l : List α} (h : l.Nodup) :
    (classes key l).flatten.Perm l := by
  refine (List.perm_ext_iff_of_nodup (List.nodup_flatten.mpr ⟨fun c hc => ?_, ?_⟩) h).mpr
    fun a => ?_
  · obtain ⟨b, -, rfl⟩ := mem_classes.mp hc
    exact h.filter _
  · exact (pairwise_classes key l).imp fun hapart a ha ha' => hapart a ha a ha' rfl
  · rw [List.mem_flatten]
    constructor
    · rintro ⟨c, hc, ha⟩
      obtain ⟨b, -, rfl⟩ := mem_classes.mp hc
      exact List.mem_of_mem_filter ha
    · intro ha
      exact ⟨_, mem_classes.mpr ⟨a, ha, rfl⟩, List.mem_filter.mpr ⟨ha, decide_eq_true rfl⟩⟩

/-! ### Filling and filtering -/

/-- One assignment after the other. -/
def fill (pairs : List (κ × α)) : OrderedDict κ α := pairs.foldl (fun d p => d.set p.1 p.2) ∅

/-- **A dictionary filled under different keys holds what came.** -/
theorem get?_fill_iff {pairs : List (κ × α)} (h : (pairs.map Prod.fst).Nodup) :
    (fill pairs).get? k = some v ↔ (k, v) ∈ pairs := by
  induction pairs using List.reverseRecOn with
  | nil => simp [fill]
  | append_singleton pairs p ih =>
    rw [List.map_append, List.nodup_append] at h
    obtain ⟨hpairs, -, hne⟩ := h
    have hlast : fill (pairs ++ [p]) = (fill pairs).set p.1 p.2 := List.foldl_concat _ _ _ _
    rw [hlast, get?_set, List.mem_append, List.mem_singleton]
    by_cases hk : k = p.1
    · subst hk
      rw [if_pos rfl]
      constructor
      · rintro ⟨⟩
        exact .inr rfl
      · rintro (hmem | hp)
        · exact absurd rfl (hne _ (List.mem_map_of_mem hmem) _ (List.mem_singleton_self _))
        · rw [← hp]
    · rw [if_neg hk, ih hpairs]
      exact ⟨.inl, fun h => h.resolve_right fun hp => hk (congrArg Prod.fst hp)⟩

/-- A comprehension over the items that keeps the keys. -/
def filterMap {β : Type*} (f : κ → α → Option β) (d : OrderedDict κ α) : OrderedDict κ β where
  items := d.items.filterMap fun i => (f i.1 i.2).map (i.1, ·)
  nodup := by
    refine d.nodup.sublist ?_
    rw [List.map_filterMap]
    have hkeys : (fun i : κ × α => ((f i.1 i.2).map (i.1, ·)).map Prod.fst) =
        fun i => (f i.1 i.2).map fun _ => i.1 := by
      funext i
      rw [Option.map_map]
      rfl
    rw [hkeys]
    generalize d.items = items
    induction items with
    | nil => exact .slnil
    | cons i items ih =>
      rw [List.filterMap_cons]
      cases f i.1 i.2 with
      | none => exact ih.cons _
      | some b => exact ih.cons_cons _

theorem get?_filterMap {β : Type*} (f : κ → α → Option β) (d : OrderedDict κ α) (k : κ) :
    (d.filterMap f).get? k = (d.get? k).bind (f k) := by
  refine Option.ext fun b => ?_
  rw [← mem_items_iff, filterMap, List.mem_filterMap, Option.bind_eq_some_iff]
  constructor
  · rintro ⟨⟨k', a⟩, hi, hmap⟩
    obtain ⟨b', hb, heq⟩ := Option.map_eq_some_iff.mp hmap
    obtain ⟨rfl, rfl⟩ := Prod.mk.inj heq
    exact ⟨a, mem_items_iff.mp hi, hb⟩
  · rintro ⟨a, ha, hb⟩
    exact ⟨(k, a), mem_items_iff.mpr ha, by rw [hb]; rfl⟩

/-- `d.update(other)`. -/
def update (d other : OrderedDict κ α) : OrderedDict κ α :=
  other.items.foldl (fun d p => d.set p.1 p.2) d

theorem get?_foldl_set {items : List (κ × α)} (h : (items.map Prod.fst).Nodup)
    (d : OrderedDict κ α) (k : κ) :
    (items.foldl (fun d p => d.set p.1 p.2) d).get? k =
      ((items.find? fun i => i.1 = k).map Prod.snd <|> d.get? k) := by
  induction items generalizing d with
  | nil => rfl
  | cons i items ih =>
    rw [List.map_cons, List.nodup_cons] at h
    rw [List.foldl_cons, ih h.2, get?_set]
    by_cases hk : k = i.1
    · subst hk
      have hnone : items.find? (fun j => j.1 = i.1) = none := by
        refine List.find?_eq_none.mpr fun j hj heq => h.1 ?_
        rw [← of_decide_eq_true heq]
        exact List.mem_map_of_mem hj
      rw [hnone, if_pos rfl, List.find?_cons_of_pos (by simp)]
      rfl
    · rw [if_neg hk, List.find?_cons_of_neg (by simpa using Ne.symm hk)]

theorem get?_update (d other : OrderedDict κ α) (k : κ) :
    (d.update other).get? k = (other.get? k <|> d.get? k) :=
  get?_foldl_set other.nodup d k

/-! ### The oldest key -/

variable [LinearOrder ρ]

/-- One turn of the loop: an item takes the place of one that ranks higher. -/
def older (rank : α → ρ) (oldest : Option (κ × ρ)) (i : κ × α) : Option (κ × ρ) :=
  match oldest with
  | none => some (i.1, rank i.2)
  | some (k, r) => if rank i.2 < r then some (i.1, rank i.2) else some (k, r)

/-- The first key whose value has the least rank. -/
def oldest? (rank : α → ρ) (d : OrderedDict κ α) : Option κ :=
  (d.items.foldl (older rank) none).map Prod.fst

omit [DecidableEq κ] in
theorem exists_older (rank : α → ρ) (o : Option (κ × ρ)) (i : κ × α) :
    ∃ k r, older rank o i = some (k, r) ∧ (k = i.1 ∨ ∃ r', o = some (k, r')) := by
  unfold older
  split
  · exact ⟨_, _, rfl, .inl rfl⟩
  · split_ifs
    · exact ⟨_, _, rfl, .inl rfl⟩
    · exact ⟨_, _, rfl, .inr ⟨_, rfl⟩⟩

omit [DecidableEq κ] in
theorem exists_foldl_older (rank : α → ρ) (items : List (κ × α)) (o : Option (κ × ρ))
    (h : items ≠ [] ∨ o ≠ none) : ∃ k r, items.foldl (older rank) o = some (k, r) ∧
      (k ∈ items.map Prod.fst ∨ ∃ r', o = some (k, r')) := by
  induction items generalizing o with
  | nil =>
    obtain ⟨⟨k, r⟩, hkr⟩ := Option.ne_none_iff_exists'.mp (h.resolve_left fun hn => hn rfl)
    exact ⟨k, r, hkr, .inr ⟨r, hkr⟩⟩
  | cons i items ih =>
    obtain ⟨k', r', hold, hfrom⟩ := exists_older rank o i
    obtain ⟨k, r, heq, hmem⟩ := ih (older rank o i) (.inr (by simp [hold]))
    refine ⟨k, r, heq, ?_⟩
    rcases hmem with hmem | ⟨r'', hr''⟩
    · exact .inl (List.mem_cons_of_mem _ hmem)
    · have hk : k' = k := congrArg Prod.fst (Option.some.inj (hold.symm.trans hr''))
      rcases hfrom with hfrom | hfrom
      · exact .inl (List.mem_cons.mpr (.inl (hk.symm.trans hfrom)))
      · exact .inr (hk ▸ hfrom)

/-- A dictionary that is not empty has an oldest key. -/
theorem exists_oldest? (rank : α → ρ) (h : d.size ≠ 0) :
    ∃ k, d.oldest? rank = some k ∧ d.get? k ≠ none := by
  obtain ⟨k, r, heq, hmem⟩ := exists_foldl_older rank d.items none
    (.inl fun hn => h (by rw [size, hn]; rfl))
  refine ⟨k, by rw [oldest?, heq]; rfl, mem_keys_iff.mp ?_⟩
  exact hmem.resolve_right fun ⟨_, hr⟩ => absurd hr (by simp)

/-! ### The least value of a key -/

/-- `cur = d.get(k)`, and `d[k] = v` if there is none or `v < cur`. -/
def setLeast (d : OrderedDict κ ρ) (p : κ × ρ) : OrderedDict κ ρ :=
  match d.get? p.1 with
  | none => d.set p.1 p.2
  | some cur => if p.2 < cur then d.set p.1 p.2 else d

/-- What is there stays or sinks. -/
theorem exists_get?_setLeast {d : OrderedDict κ ρ} {r : ρ} (p : κ × ρ) (h : d.get? k = some r) :
    ∃ r', (d.setLeast p).get? k = some r' ∧ r' ≤ r := by
  unfold setLeast
  by_cases hk : k = p.1
  · subst hk
    rw [h]
    dsimp only
    split_ifs with hlt
    · exact ⟨_, get?_set_self, le_of_lt hlt⟩
    · exact ⟨r, h, le_rfl⟩
  · split
    · exact ⟨r, (get?_set_of_ne hk).trans h, le_rfl⟩
    · split_ifs
      · exact ⟨r, (get?_set_of_ne hk).trans h, le_rfl⟩
      · exact ⟨r, h, le_rfl⟩

/-- What comes is not below what is then kept. -/
theorem exists_get?_setLeast_self (d : OrderedDict κ ρ) (p : κ × ρ) :
    ∃ r, (d.setLeast p).get? p.1 = some r ∧ r ≤ p.2 := by
  unfold setLeast
  cases hcur : d.get? p.1 with
  | none => exact ⟨_, get?_set_self, le_rfl⟩
  | some cur =>
    dsimp only
    split_ifs with hlt
    · exact ⟨_, get?_set_self, le_rfl⟩
    · exact ⟨cur, hcur, not_lt.mp hlt⟩

/-- **Nothing that came is below what is kept.** -/
theorem exists_get?_foldl_setLeast {pairs : List (κ × ρ)} {p : κ × ρ} (h : p ∈ pairs) :
    ∃ r, (pairs.foldl setLeast ∅).get? p.1 = some r ∧ r ≤ p.2 := by
  induction pairs using List.reverseRecOn with
  | nil => cases h
  | append_singleton pairs q ih =>
    rw [List.foldl_concat]
    rcases List.mem_append.mp h with h | h
    · obtain ⟨r, hr, hle⟩ := ih h
      obtain ⟨r', hr', hle'⟩ := exists_get?_setLeast q hr
      exact ⟨r', hr', le_trans hle' hle⟩
    · obtain rfl := List.mem_singleton.mp h
      exact exists_get?_setLeast_self _ p

end OrderedDict
