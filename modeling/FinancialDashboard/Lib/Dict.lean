import Mathlib.Algebra.BigOperators.Group.Finset.Piecewise
import Mathlib.Data.List.AList

/-!
# Dictionaries filled in a loop

The loops that fill a dictionary, and what is in it afterwards.

* `latest` keeps, for each key, the element that none of the later ones replaces:
  the dictionary `best` of so many loops.  `lookup_latest_iff`: what it has is the
  element of the highest rank.
* `newest` keeps the first of the highest elements, in place.  `newest_spec`: it has one of
  each key, and none ranks higher; `mem_newest_filter`: it may be looked for among fewer.
* `onePass` keeps the last of each key while it goes through the cutoffs.  `onePass_eq`:
  what it sees at each is the latest as of then.
* `adjust` updates an entry.  `foldlM_adjust`: an entry has had the updates of its key.
* `nest` turns a dictionary on pairs into a dictionary of dictionaries.
  `lookup_nest_iff`: nothing is lost; `lookupNested_nest`: the last entry stays.
* `groups` collects the elements of each key.  `sum_groups`: the totals of the
  groups add up to the total; `groups_perm`: the groups are the elements.
* `sum_entries`: a sum over a dictionary's values is a sum over its keys.
-/

namespace Dict

variable {κ α ρ M : Type*} [DecidableEq κ] [LinearOrder ρ]

/-! ### The latest of each key -/

/-- Keep `a` unless the element its key has stays. -/
def keep (key : α → κ) (replaces : α → α → Bool) (best : AList fun _ : κ => α) (a : α) :
    AList fun _ : κ => α :=
  match best.lookup (key a) with
  | none => best.insert (key a) a
  | some current => if replaces a current then best.insert (key a) a else best

def latest (key : α → κ) (replaces : α → α → Bool) (l : List α) : AList fun _ : κ => α :=
  l.foldl (keep key replaces) ∅

/-- `a` has the key `k`, and no element of that key ranks higher. -/
structure IsLatest (key : α → κ) (rank : α → ρ) (l : List α) (k : κ) (a : α) : Prop where
  mem : a ∈ l
  key_eq : key a = k
  last : ∀ b ∈ l, key b = k → rank b ≤ rank a

variable {key : α → κ} {rank : α → ρ} {replaces : α → α → Bool} {l : List α} {k : κ} {a b : α}

/-- No two elements are of one rank. -/
abbrev Ranked (rank : α → ρ) (l : List α) : Prop := l.Pairwise fun a b => rank a ≠ rank b

omit [LinearOrder ρ] in
theorem eq_of_rank_eq (h : Ranked rank l) (ha : a ∈ l) (hb : b ∈ l) (heq : rank a = rank b) :
    a = b := by
  by_contra hne
  have : Std.Symm fun a b => rank a ≠ rank b := ⟨fun _ _ h => h.symm⟩
  exact h.forall ha hb hne heq

omit [DecidableEq κ] in
theorem IsLatest.unique (h : Ranked rank l) (ha : IsLatest key rank l k a)
    (hb : IsLatest key rank l k b) : a = b :=
  eq_of_rank_eq h ha.mem hb.mem
    (le_antisymm (hb.last a ha.mem ha.key_eq) (ha.last b hb.mem hb.key_eq))

theorem latest_concat : latest key replaces (l ++ [a]) = keep key replaces (latest key replaces l) a := by
  simp [latest]

theorem lookup_keep_of_ne {best : AList fun _ : κ => α} (h : k ≠ key a) :
    (keep key replaces best a).lookup k = best.lookup k := by
  unfold keep
  split
  · exact AList.lookup_insert_ne h
  · split_ifs
    · exact AList.lookup_insert_ne h
    · rfl

theorem lookup_keep_self {best : AList fun _ : κ => α} :
    (keep key replaces best a).lookup (key a) =
      some (match best.lookup (key a) with
        | none => a
        | some current => if replaces a current then a else current) := by
  unfold keep
  split
  · rename_i h
    simp [AList.lookup_insert]
  · rename_i current h
    split_ifs
    · exact AList.lookup_insert _
    · exact h

/-- A key the list has is in the dictionary. -/
theorem lookup_latest_ne_none (h : a ∈ l) : (latest key replaces l).lookup (key a) ≠ none := by
  induction l using List.reverseRecOn with
  | nil => cases h
  | append_singleton l b ih =>
    rw [latest_concat]
    by_cases hkey : key a = key b
    · rw [hkey, lookup_keep_self]
      simp
    · rw [lookup_keep_of_ne hkey]
      refine ih ?_
      rcases List.mem_append.mp h with h | h
      · exact h
      · exact absurd (congrArg key (List.mem_singleton.mp h)) hkey

theorem isLatest_of_lookup (h : Ranked rank l)
    (hreplaces : ∀ a b, rank a ≠ rank b → (replaces a b = true ↔ rank b < rank a))
    (hlookup : (latest key replaces l).lookup k = some a) : IsLatest key rank l k a := by
  induction l using List.reverseRecOn generalizing a with
  | nil => simp [latest] at hlookup
  | append_singleton l b ih =>
    obtain ⟨hl, -, hb⟩ := List.pairwise_append.mp h
    rw [latest_concat] at hlookup
    by_cases hkey : k = key b
    · subst hkey
      rw [lookup_keep_self] at hlookup
      have ha := Option.some.inj hlookup
      cases hcurrent : (latest key replaces l).lookup (key b) with
      | none =>
        obtain rfl : b = a := by simpa [hcurrent] using ha
        refine ⟨by simp, rfl, fun c hc hck => ?_⟩
        rcases List.mem_append.mp hc with hc | hc
        · exact absurd (hck ▸ hcurrent) (lookup_latest_ne_none hc)
        · rw [List.mem_singleton.mp hc]
      | some current =>
        have hlatest := ih hl hcurrent
        have hne : rank b ≠ rank current := (hb current hlatest.mem b (by simp)).symm
        rw [hcurrent] at ha
        dsimp only at ha
        split_ifs at ha with hnew
        · subst ha
          have hlt := (hreplaces _ _ hne).mp hnew
          refine ⟨by simp, rfl, fun c hc hck => ?_⟩
          rcases List.mem_append.mp hc with hc | hc
          · exact (hlatest.last c hc hck).trans hlt.le
          · rw [List.mem_singleton.mp hc]
        · subst ha
          have hle : rank b ≤ rank current :=
            le_of_not_gt fun hlt => hnew ((hreplaces _ _ hne).mpr hlt)
          refine ⟨List.mem_append_left _ hlatest.mem, hlatest.key_eq, fun c hc hck => ?_⟩
          rcases List.mem_append.mp hc with hc | hc
          · exact hlatest.last c hc hck
          · rw [List.mem_singleton.mp hc]
            exact hle
    · rw [lookup_keep_of_ne hkey] at hlookup
      have hlatest := ih hl hlookup
      refine ⟨List.mem_append_left _ hlatest.mem, hlatest.key_eq, fun c hc hck => ?_⟩
      rcases List.mem_append.mp hc with hc | hc
      · exact hlatest.last c hc hck
      · rw [List.mem_singleton.mp hc] at hck
        exact absurd hck.symm hkey

/-- **The pass finds the latest of each key.** -/
theorem lookup_latest_iff (h : Ranked rank l)
    (hreplaces : ∀ a b, rank a ≠ rank b → (replaces a b = true ↔ rank b < rank a)) :
    (latest key replaces l).lookup k = some a ↔ IsLatest key rank l k a := by
  constructor
  · exact isLatest_of_lookup h hreplaces
  · intro ha
    have hsome : (latest key replaces l).lookup k ≠ none := by
      rw [← ha.key_eq]
      exact lookup_latest_ne_none ha.mem
    obtain ⟨b, hb⟩ := Option.ne_none_iff_exists'.mp hsome
    rw [hb, (isLatest_of_lookup h hreplaces hb).unique h ha]

/-! ### Renamed keys and elements -/

section

variable {κ' α' : Type*} [DecidableEq κ'] {key' : α' → κ'} {replaces' : α' → α' → Bool}
  {rename : κ → κ'} {f : α → α'}

theorem dlookup_map (hrename : Function.Injective rename) (k : κ)
    (entries : List (Σ _ : κ, α)) :
    List.dlookup (rename k) (entries.map fun x => (⟨rename x.1, f x.2⟩ : Σ _ : κ', α')) =
      (List.dlookup k entries).map f := by
  induction entries with
  | nil => rfl
  | cons x rest ih =>
    obtain ⟨j, a⟩ := x
    by_cases h : k = j
    · subst h
      rw [List.map_cons, List.dlookup_cons_eq, List.dlookup_cons_eq]
      rfl
    · rw [List.map_cons, List.dlookup_cons_ne _ _ (hrename.ne h), List.dlookup_cons_ne _ _ h, ih]

theorem kerase_map (hrename : Function.Injective rename) (k : κ) (entries : List (Σ _ : κ, α)) :
    List.kerase (rename k) (entries.map fun x => (⟨rename x.1, f x.2⟩ : Σ _ : κ', α')) =
      (List.kerase k entries).map fun x => ⟨rename x.1, f x.2⟩ := by
  induction entries with
  | nil => rfl
  | cons x rest ih =>
    obtain ⟨j, a⟩ := x
    by_cases h : k = j
    · subst h
      simp
    · rw [List.map_cons, List.kerase_cons_ne (hrename.ne h), List.kerase_cons_ne h, ih, List.map_cons]

/-- **Another spelling of the keys finds the same elements**, in the same order. -/
theorem entries_latest_map (hrename : Function.Injective rename)
    (hkey : ∀ a, key' (f a) = rename (key a))
    (hreplaces : ∀ a b, replaces' (f a) (f b) = replaces a b) (l : List α) :
    (latest key' replaces' (l.map f)).entries =
      (latest key replaces l).entries.map fun x => ⟨rename x.1, f x.2⟩ := by
  induction l using List.reverseRecOn with
  | nil => rfl
  | append_singleton l a ih =>
    have hlookup : (latest key' replaces' (l.map f)).lookup (rename (key a)) =
        ((latest key replaces l).lookup (key a)).map f := by
      unfold AList.lookup
      rw [ih, dlookup_map hrename]
    have hinsert : ((latest key' replaces' (l.map f)).insert (rename (key a)) (f a)).entries =
        ((latest key replaces l).insert (key a) a).entries.map fun x => ⟨rename x.1, f x.2⟩ := by
      rw [AList.entries_insert, AList.entries_insert, ih, kerase_map hrename, List.map_cons]
    rw [List.map_append, List.map_cons, List.map_nil, latest_concat, latest_concat]
    unfold keep
    rw [hkey, hlookup]
    cases h : (latest key replaces l).lookup (key a) with
    | none => exact hinsert
    | some current =>
      simp only [Option.map_some, hreplaces]
      split_ifs
      · exact hinsert
      · exact ih

end

/-! ### One pass over cutoffs -/

/-- Every element of a key replaces the one before: the last write wins. -/
def lastWrite (key : α → κ) (best : AList fun _ : κ => α) (l : List α) : AList fun _ : κ => α :=
  l.foldl (fun best a => best.insert (key a) a) best

/-- **In the order of the rank the last of a key is the latest.** -/
theorem latest_of_sorted (hl : l.Pairwise fun a b => rank a < rank b)
    (hreplaces : ∀ a b, rank a ≠ rank b → (replaces a b = true ↔ rank b < rank a)) :
    latest key replaces l = lastWrite key ∅ l := by
  induction l using List.reverseRecOn with
  | nil => rfl
  | append_singleton l a ih =>
    obtain ⟨hsorted, -, hlast⟩ := List.pairwise_append.mp hl
    have hranked : Ranked rank l := hsorted.imp fun h => h.ne
    have hconcat : lastWrite key ∅ (l ++ [a]) = (lastWrite key ∅ l).insert (key a) a := by
      simp [lastWrite]
    rw [latest_concat, hconcat, ← ih hsorted]
    unfold keep
    split
    · rfl
    · rename_i current hcurrent
      have hmem := (isLatest_of_lookup hranked hreplaces hcurrent).mem
      have hlt : rank current < rank a := hlast current hmem a (List.mem_singleton_self a)
      rw [if_pos ((hreplaces a current hlt.ne').mpr hlt)]

section

variable {τ β : Type*} [LinearOrder τ] {date : α → τ} {c : τ} {cutoffs : List τ}
  {view : (AList fun _ : κ => α) → β} {best : AList fun _ : κ => α}

/-- The loop that takes what is not after the cutoff, and what it leaves. -/
def advance (key : α → κ) (date : α → τ) (c : τ) (best : AList fun _ : κ => α) :
    List α → (AList fun _ : κ => α) × List α
  | [] => (best, [])
  | a :: rest => if date a ≤ c then advance key date c (best.insert (key a) a) rest else (best, a :: rest)

/-- One pass over the elements, which are seen as they stand at each cutoff. -/
def onePass (key : α → κ) (date : α → τ) (view : (AList fun _ : κ => α) → β)
    (best : AList fun _ : κ => α) (l : List α) : List τ → List β
  | [] => []
  | c :: cutoffs =>
    view (advance key date c best l).1 ::
      onePass key date view (advance key date c best l).1 (advance key date c best l).2 cutoffs

omit [LinearOrder ρ] [DecidableEq κ] in
/-- From a late element on all are late. -/
theorem late_of_sorted {rest : List α} (hl : (a :: rest).Pairwise fun a b => date a ≤ date b)
    (ha : ¬date a ≤ c) : (a :: rest).filter (date · ≤ c) = [] ∧
      (a :: rest).filter (c < date ·) = a :: rest := by
  have hlate : ∀ b ∈ a :: rest, c < date b := by
    intro b hb
    rcases List.mem_cons.mp hb with rfl | hb
    · exact lt_of_not_ge ha
    · exact (lt_of_not_ge ha).trans_le ((List.pairwise_cons.mp hl).1 b hb)
  exact ⟨List.filter_eq_nil_iff.mpr fun b hb => by simpa using hlate b hb,
    List.filter_eq_self.mpr fun b hb => by simpa using hlate b hb⟩

theorem filter_append_late (hl : l.Pairwise fun a b => date a ≤ date b) :
    l.filter (date · ≤ c) ++ l.filter (c < date ·) = l := by
  induction l with
  | nil => rfl
  | cons a rest ih =>
    by_cases ha : date a ≤ c
    · rw [List.filter_cons_of_pos (by simpa using ha), List.filter_cons_of_neg (by simpa using ha),
        List.cons_append, ih (List.pairwise_cons.mp hl).2]
    · rw [(late_of_sorted hl ha).1, (late_of_sorted hl ha).2, List.nil_append]

/-- What is taken in one go is what is not after the cutoff. -/
theorem advance_eq (hl : l.Pairwise fun a b => date a ≤ date b) :
    advance key date c best l =
      (lastWrite key best (l.filter (date · ≤ c)), l.filter (c < date ·)) := by
  induction l generalizing best with
  | nil => rfl
  | cons a rest ih =>
    obtain ⟨ha, hrest⟩ := List.pairwise_cons.mp hl
    unfold advance
    split_ifs with hac
    · rw [ih hrest, List.filter_cons_of_pos (by simpa using hac),
        List.filter_cons_of_neg (by simpa using hac)]
      rfl
    · rw [(late_of_sorted hl hac).1, (late_of_sorted hl hac).2]
      rfl

/-- **One pass sees at each cutoff the latest as of the cutoff.** -/
theorem onePass_eq (hl : l.Pairwise fun a b => rank a < rank b)
    (hdate : l.Pairwise fun a b => date a ≤ date b) (hcutoffs : cutoffs.Pairwise (· ≤ ·))
    (hreplaces : ∀ a b, rank a ≠ rank b → (replaces a b = true ↔ rank b < rank a)) :
    onePass key date view ∅ l cutoffs =
      cutoffs.map fun c => view (latest key replaces (l.filter (date · ≤ c))) := by
  -- what has been taken is not after any cutoff to come
  suffices h : ∀ done rest : List α, (done ++ rest).Pairwise (fun a b => date a ≤ date b) →
      (done ++ rest).Pairwise (fun a b => rank a < rank b) →
      (∀ a ∈ done, ∀ c ∈ cutoffs, date a ≤ c) →
      onePass key date view (lastWrite key ∅ done) rest cutoffs = cutoffs.map fun c =>
        view (latest key replaces ((done ++ rest).filter (date · ≤ c))) by
    exact h [] l hdate hl fun a ha => absurd ha List.not_mem_nil
  induction cutoffs with
  | nil => exact fun done rest _ _ _ => rfl
  | cons c cutoffs ih =>
    intro done rest hdates hranks hdone
    obtain ⟨hc, hrest⟩ := List.pairwise_cons.mp hcutoffs
    have hsplit : (done ++ rest).filter (date · ≤ c) = done ++ rest.filter (date · ≤ c) := by
      rw [List.filter_append, List.filter_eq_self.mpr fun a ha => by
        simpa using hdone a ha c List.mem_cons_self]
    have htaken : lastWrite key (lastWrite key ∅ done) (rest.filter (date · ≤ c)) =
        lastWrite key ∅ (done ++ rest.filter (date · ≤ c)) := by
      simp [lastWrite, List.foldl_append]
    have hdatesRest := (List.pairwise_append.mp hdates).2.1
    rw [onePass, advance_eq hdatesRest, htaken, List.map_cons, hsplit,
      latest_of_sorted (hsplit ▸ hranks.filter _) hreplaces]
    refine congrArg₂ List.cons rfl ?_
    have hall := ih hrest (done ++ rest.filter (date · ≤ c)) (rest.filter (c < date ·))
    rw [List.append_assoc, filter_append_late hdatesRest] at hall
    refine hall hdates hranks fun a ha c' hc' => ?_
    rcases List.mem_append.mp ha with ha | ha
    · exact hdone a ha c' (List.mem_cons_of_mem c hc')
    · exact (of_decide_eq_true (List.mem_filter.mp ha).2).trans (hc c' hc')

end

/-! ### The highest of each key, in place -/

section

variable {best : List α}

/-- `a` takes the place of a lower element of its key, or a place of its own. -/
def supersede (key : α → κ) (rank : α → ρ) (best : List α) (a : α) : List α :=
  if best.any (key · = key a) then
    best.map fun b => if key b = key a ∧ rank b < rank a then a else b
  else best ++ [a]

/-- The first of the highest elements of each key, in the order of the keys' first elements. -/
def newest (key : α → κ) (rank : α → ρ) (l : List α) : List α :=
  l.foldl (supersede key rank) []

/-- `best` has one element of each key of `l`, and none ranks higher. -/
structure Newest (key : α → κ) (rank : α → ρ) (l best : List α) : Prop where
  nodup : (best.map key).Nodup
  latest : ∀ b ∈ best, IsLatest key rank l (key b) b
  complete : ∀ a ∈ l, ∃ b ∈ best, key b = key a

theorem any_key_iff : best.any (key · = key a) = true ↔ ∃ b ∈ best, key b = key a := by
  simp

omit [DecidableEq κ] in
theorem IsLatest.concat (h : IsLatest key rank l k b) (ha : key a = k → rank a ≤ rank b) :
    IsLatest key rank (l ++ [a]) k b where
  mem := List.mem_append_left _ h.mem
  key_eq := h.key_eq
  last c hc hk := by
    rcases List.mem_append.mp hc with hc | hc
    · exact h.last c hc hk
    · obtain rfl := List.mem_singleton.mp hc
      exact ha hk

/-- **One element more.** -/
theorem Newest.supersede (h : Newest key rank l best) :
    Newest key rank (l ++ [a]) (supersede key rank best a) := by
  unfold Dict.supersede
  split_ifs with hany
  · obtain ⟨current, hcurrent, hkey⟩ := any_key_iff.mp hany
    have hkeys : (fun b => key (if key b = key a ∧ rank b < rank a then a else b)) = key := by
      funext b
      split_ifs with hb
      · exact hb.1.symm
      · rfl
    refine ⟨?_, fun b hb => ?_, fun c hc => ?_⟩
    · rw [List.map_map, Function.comp_def, hkeys]
      exact h.nodup
    · obtain ⟨old, hold, rfl⟩ := List.mem_map.mp hb
      have hlatest := h.latest old hold
      split_ifs with hlower
      · refine ⟨List.mem_append_right _ (List.mem_singleton_self a), rfl, fun c hc hk => ?_⟩
        rcases List.mem_append.mp hc with hc | hc
        · exact (hlatest.last c hc (hk.trans hlower.1.symm)).trans hlower.2.le
        · rw [List.mem_singleton.mp hc]
      · exact hlatest.concat fun hk => not_lt.mp fun hlt => hlower ⟨hk.symm, hlt⟩
    · have hfound : ∃ b ∈ best, key b = key c := by
        rcases List.mem_append.mp hc with hc | hc
        · exact h.complete c hc
        · exact ⟨current, hcurrent, List.mem_singleton.mp hc ▸ hkey⟩
      obtain ⟨b, hb, hk⟩ := hfound
      exact ⟨_, List.mem_map_of_mem hb, (congrFun hkeys b).trans hk⟩
  · have hnew : ∀ b ∈ best, key b ≠ key a := fun b hb hk => hany (any_key_iff.mpr ⟨b, hb, hk⟩)
    refine ⟨?_, fun b hb => ?_, fun c hc => ?_⟩
    · rw [List.map_append, List.map_singleton, List.nodup_append]
      refine ⟨h.nodup, List.nodup_singleton _, fun k hk k' hk' => ?_⟩
      obtain ⟨b, hb, rfl⟩ := List.mem_map.mp hk
      rw [List.mem_singleton.mp hk']
      exact hnew b hb
    · rcases List.mem_append.mp hb with hb | hb
      · exact (h.latest b hb).concat fun hk => absurd hk.symm (hnew b hb)
      · obtain rfl := List.mem_singleton.mp hb
        refine ⟨List.mem_append_right _ hb, rfl, fun c hc hk => ?_⟩
        rcases List.mem_append.mp hc with hc | hc
        · obtain ⟨d, hd, hkd⟩ := h.complete c hc
          exact absurd (hkd.trans hk) (hnew d hd)
        · rw [List.mem_singleton.mp hc]
    · rcases List.mem_append.mp hc with hc | hc
      · obtain ⟨b, hb, hk⟩ := h.complete c hc
        exact ⟨b, List.mem_append_left _ hb, hk⟩
      · exact ⟨c, List.mem_append_right _ hc, rfl⟩

/-- **The pass finds the highest of each key.** -/
theorem newest_spec (key : α → κ) (rank : α → ρ) (l : List α) :
    Newest key rank l (newest key rank l) := by
  induction l using List.reverseRecOn with
  | nil => exact ⟨List.nodup_nil, nofun, nofun⟩
  | append_singleton l a ih =>
    rw [newest, List.foldl_append, List.foldl_cons, List.foldl_nil]
    exact ih.supersede

/-- `a` is the first of the highest elements of its key. -/
def IsFirstHighest (key : α → κ) (rank : α → ρ) (l : List α) (a : α) : Prop :=
  ∃ before after, l = before ++ a :: after ∧ (∀ b ∈ before, key b = key a → rank b < rank a) ∧
    ∀ b ∈ after, key b = key a → rank b ≤ rank a

theorem isFirstHighest_of_mem (h : a ∈ newest key rank l) : IsFirstHighest key rank l a := by
  induction l using List.reverseRecOn generalizing a with
  | nil => cases h
  | append_singleton l x ih =>
    have hspec := newest_spec key rank l
    rw [newest, List.foldl_append, List.foldl_cons, List.foldl_nil] at h
    change a ∈ supersede key rank (newest key rank l) x at h
    have hkeep : a ∈ newest key rank l → (key x = key a → rank x ≤ rank a) →
        IsFirstHighest key rank (l ++ [x]) a := by
      intro ha hx
      obtain ⟨before, after, rfl, hbefore, hafter⟩ := ih ha
      refine ⟨before, after ++ [x], by simp, hbefore, fun b hb hk => ?_⟩
      rcases List.mem_append.mp hb with hb | hb
      · exact hafter b hb hk
      · obtain rfl := List.mem_singleton.mp hb
        exact hx hk
    unfold supersede at h
    split_ifs at h with hany
    · obtain ⟨b, hb, rfl⟩ := List.mem_map.mp h
      split_ifs at hkeep ⊢ with hlower
      · refine ⟨l, [], rfl, fun c hc hk => ?_, nofun⟩
        exact ((hspec.latest b hb).last c hc (hk.trans hlower.1.symm)).trans_lt hlower.2
      · exact hkeep hb fun hk => not_lt.mp fun hlt => hlower ⟨hk.symm, hlt⟩
    · have hnew : ∀ b ∈ newest key rank l, key b ≠ key x := fun b hb hk =>
        hany (any_key_iff.mpr ⟨b, hb, hk⟩)
      rcases List.mem_append.mp h with h | h
      · exact hkeep h fun hk => absurd hk.symm (hnew a h)
      · obtain rfl := List.mem_singleton.mp h
        refine ⟨l, [], rfl, fun c hc hk => ?_, nofun⟩
        obtain ⟨b, hb, hkb⟩ := hspec.complete c hc
        exact absurd (hkb.trans hk) (hnew b hb)

omit [DecidableEq κ] in
theorem IsFirstHighest.unique (ha : IsFirstHighest key rank l a)
    (hb : IsFirstHighest key rank l b) (hk : key a = key b) : a = b := by
  obtain ⟨before, after, rfl, hbefore, hafter⟩ := ha
  obtain ⟨before', after', heq, hbefore', hafter'⟩ := hb
  rcases List.append_eq_append_iff.mp heq with ⟨rest, rfl, hrest⟩ | ⟨rest, rfl, hrest⟩
  · cases rest with
    | nil => exact (List.cons.inj hrest).1
    | cons x rest =>
      obtain ⟨rfl, hafter''⟩ := List.cons.inj hrest
      have hlt := hbefore' a (by simp) hk
      have hle := hafter b (by rw [hafter'']; simp) hk.symm
      exact absurd hlt (not_lt.mpr hle)
  · cases rest with
    | nil => exact (List.cons.inj hrest).1.symm
    | cons x rest =>
      obtain ⟨rfl, hafter''⟩ := List.cons.inj hrest
      have hlt := hbefore b (by simp) hk.symm
      have hle := hafter' a (by rw [hafter'']; simp) hk
      exact absurd hlt (not_lt.mpr hle)

theorem mem_newest_iff : a ∈ newest key rank l ↔ IsFirstHighest key rank l a := by
  refine ⟨isFirstHighest_of_mem, fun h => ?_⟩
  have hmem : a ∈ l := by
    obtain ⟨before, after, rfl, -⟩ := h
    simp
  obtain ⟨b, hb, hk⟩ := (newest_spec key rank l).complete a hmem
  exact h.unique (isFirstHighest_of_mem hb) hk.symm ▸ hb

/-- **What is highest of all is highest of those selected**, if it is selected. -/
theorem mem_newest_filter {p : α → Bool} (h : a ∈ newest key rank l) (hp : p a = true) :
    a ∈ newest key rank (l.filter p) := by
  obtain ⟨before, after, rfl, hbefore, hafter⟩ := mem_newest_iff.mp h
  refine mem_newest_iff.mpr ⟨before.filter p, after.filter p, ?_, fun b hb => ?_, fun b hb => ?_⟩
  · rw [List.filter_append, List.filter_cons_of_pos hp]
  · exact hbefore b (List.mem_of_mem_filter hb)
  · exact hafter b (List.mem_of_mem_filter hb)

/-- Elements changed in what is not their key and rank are found as they are. -/
theorem newest_map {f : α → α} (hkey : ∀ a, key (f a) = key a) (hrank : ∀ a, rank (f a) = rank a)
    (l : List α) : newest key rank (l.map f) = (newest key rank l).map f := by
  induction l using List.reverseRecOn with
  | nil => rfl
  | append_singleton l x ih =>
    have hconcat : ∀ (l : List α) x, newest key rank (l ++ [x]) =
        supersede key rank (newest key rank l) x := fun l x => by
      rw [newest, List.foldl_append]
      rfl
    rw [List.map_append, List.map_singleton, hconcat, hconcat, ih]
    unfold supersede
    simp only [List.any_map, Function.comp_def, hkey, List.map_map, hrank]
    split_ifs
    · rw [List.map_map]
      refine List.map_congr_left fun b _ => ?_
      rw [Function.comp_apply, apply_ite f]
    · rw [List.map_append, List.map_singleton]

end

/-! ### Entries updated in place -/

section

variable {ι β ε : Type*} {missing : ε} {item : ι → κ} {update : ι → β → β} {items : List ι}
  {d : AList fun _ : κ => β}

/-- `{k: seed(k) for k in keys}`. -/
def ofKeys (seed : κ → β) (keys : List κ) : AList fun _ : κ => β :=
  keys.foldl (fun d k => d.insert k (seed k)) ∅

theorem lookup_ofKeys {seed : κ → β} {keys : List κ} (h : k ∈ keys) :
    (ofKeys seed keys).lookup k = some (seed k) := by
  induction keys using List.reverseRecOn with
  | nil => cases h
  | append_singleton keys j ih =>
    have hconcat : ofKeys seed (keys ++ [j]) = (ofKeys seed keys).insert j (seed j) := by
      simp [ofKeys]
    rw [hconcat]
    by_cases hkj : k = j
    · rw [hkj, AList.lookup_insert]
    · rw [AList.lookup_insert_ne hkj]
      refine ih ?_
      rcases List.mem_append.mp h with h | h
      · exact h
      · exact absurd (List.mem_singleton.mp h) hkj

/-- `d[k] = f(d[k])`, an error if `d` has no `k`. -/
def adjust (missing : ε) (k : κ) (f : β → β) (d : AList fun _ : κ => β) :
    Except ε (AList fun _ : κ => β) :=
  match d.lookup k with
  | none => .error missing
  | some b => .ok (d.insert k (f b))

/-- **An entry is updated by the items of its key**, and where each item has an entry the
loop ends. -/
theorem foldlM_adjust (item : ι → κ) (update : ι → β → β) (items : List ι)
    (d : AList fun _ : κ => β) (missing : ε) (h : ∀ i ∈ items, (d.lookup (item i)).isSome) :
    ∃ d', items.foldlM (fun d i => adjust missing (item i) (update i) d) d = .ok d' ∧
      ∀ k, d'.lookup k = (d.lookup k).map fun b =>
        (items.filter (item · = k)).foldl (fun b i => update i b) b := by
  induction items generalizing d with
  | nil => exact ⟨d, rfl, fun k => by simp⟩
  | cons i rest ih =>
    obtain ⟨b, hb⟩ := Option.isSome_iff_exists.mp (h i List.mem_cons_self)
    have hlookup : ∀ k, (d.insert (item i) (update i b)).lookup k =
        if k = item i then some (update i b) else d.lookup k := by
      intro k
      split_ifs with hk
      · rw [hk, AList.lookup_insert]
      · rw [AList.lookup_insert_ne hk]
    obtain ⟨d', hrun, hd'⟩ := ih (d := d.insert (item i) (update i b)) fun j hj => by
      rw [hlookup]
      split_ifs
      · rfl
      · exact h j (List.mem_cons_of_mem i hj)
    refine ⟨d', ?_, fun k => ?_⟩
    · have hstep : adjust missing (item i) (update i) d = .ok (d.insert (item i) (update i b)) := by
        rw [adjust, hb]
      rw [List.foldlM_cons, hstep]
      exact hrun
    · rw [hd', hlookup]
      by_cases hk : k = item i
      · subst hk
        simp [hb]
      · rw [if_neg hk, List.filter_cons_of_neg (by simpa using Ne.symm hk)]

end

/-! ### Sums over a dictionary -/

theorem sum_keys [AddCommMonoid M] (m : AList fun _ : κ => α) (f : α → M) :
    (m.entries.map fun e => f e.2).sum = (m.keys.map fun k => (m.lookup k).elim 0 f).sum := by
  unfold AList.keys List.keys
  rw [List.map_map]
  refine congrArg List.sum (List.map_congr_left fun e he => ?_)
  have hlookup : m.lookup e.1 = some e.2 := AList.mem_lookup_iff.mpr he
  simp [hlookup]

/-- **A sum over a dictionary's values**, over any set of keys that has all its keys. -/
theorem sum_entries [AddCommMonoid M] (m : AList fun _ : κ => α) (f : α → M) (s : Finset κ)
    (hs : ∀ k ∈ m.keys, k ∈ s) :
    (m.entries.map fun e => f e.2).sum = ∑ k ∈ s, (m.lookup k).elim 0 f := by
  rw [sum_keys, ← List.sum_toFinset _ m.keys_nodup]
  refine Finset.sum_subset (fun k hk => hs k (by simpa using hk)) fun k _ hk => ?_
  have hnone : m.lookup k = none := by
    rw [AList.lookup_eq_none, AList.mem_keys]
    simpa using hk
  rw [hnone]
  rfl

/-! ### Dictionaries of dictionaries -/

section

variable {τ V : Type*} [DecidableEq τ]

/-- `nested.setdefault(k, {})[t] = v`. -/
def setNested (m : AList fun _ : κ => AList fun _ : τ => V) (e : (κ × τ) × V) :
    AList fun _ : κ => AList fun _ : τ => V :=
  m.insert e.1.1 (((m.lookup e.1.1).getD ∅).insert e.1.2 e.2)

def nest (l : List ((κ × τ) × V)) : AList fun _ : κ => AList fun _ : τ => V := l.foldl setNested ∅

/-- What the inner dictionary of `k` has at `t`. -/
def lookupNested (m : AList fun _ : κ => AList fun _ : τ => V) (k : κ) (t : τ) : Option V :=
  ((m.lookup k).getD ∅).lookup t

theorem lookupNested_set (m : AList fun _ : κ => AList fun _ : τ => V) (e : (κ × τ) × V) (k : κ)
    (t : τ) :
    lookupNested (setNested m e) k t = if (k, t) = e.1 then some e.2 else lookupNested m k t := by
  obtain ⟨⟨k', t'⟩, v⟩ := e
  unfold lookupNested setNested
  dsimp only
  by_cases hk : k = k'
  · subst hk
    rw [AList.lookup_insert, Option.getD_some]
    by_cases ht : t = t'
    · subst ht
      rw [AList.lookup_insert, if_pos rfl]
    · rw [AList.lookup_insert_ne ht, if_neg fun h => ht (Prod.mk.inj h).2]
  · rw [AList.lookup_insert_ne hk, if_neg fun h => hk (Prod.mk.inj h).1]

theorem mem_nest {l : List ((κ × τ) × V)} (h : k ∈ nest l) : ∃ e ∈ l, e.1.1 = k := by
  induction l using List.reverseRecOn with
  | nil => exact absurd h (AList.notMem_empty k)
  | append_singleton l e ih =>
    have hnest : nest (l ++ [e]) = setNested (nest l) e := by simp [nest]
    rw [hnest] at h
    unfold setNested at h
    rcases (AList.mem_insert _).mp h with rfl | h
    · exact ⟨e, by simp, rfl⟩
    · obtain ⟨e', he', hkey⟩ := ih h
      exact ⟨e', List.mem_append_left _ he', hkey⟩

/-- **Nothing is lost by nesting.** -/
theorem lookup_nest_iff {l : List ((κ × τ) × V)} (h : (l.map (·.1)).Nodup) {t : τ} {v : V} :
    lookupNested (nest l) k t = some v ↔ ((k, t), v) ∈ l := by
  induction l using List.reverseRecOn with
  | nil => simp [nest, lookupNested]
  | append_singleton l e ih =>
    rw [List.map_append, List.nodup_append] at h
    obtain ⟨hl, -, hfresh⟩ := h
    have hnest : nest (l ++ [e]) = setNested (nest l) e := by simp [nest]
    rw [hnest, lookupNested_set]
    split_ifs with hkt
    · constructor
      · intro hv
        obtain rfl := Option.some.inj hv
        simp [hkt]
      · intro hmem
        rcases List.mem_append.mp hmem with hmem | hmem
        · have hold : (k, t) ∈ l.map (·.1) := List.mem_map_of_mem hmem
          exact absurd hkt (hfresh _ hold _ (by simp))
        · rw [← List.mem_singleton.mp hmem]
    · rw [ih hl]
      constructor
      · exact List.mem_append_left _
      · intro hmem
        rcases List.mem_append.mp hmem with hmem | hmem
        · exact hmem
        · exact absurd (congrArg (·.1) (List.mem_singleton.mp hmem)) hkt

/-- **The last entry of a key and a time is the one that stays.** -/
theorem lookupNested_nest (l : List ((κ × τ) × V)) (k : κ) (t : τ) :
    lookupNested (nest l) k t = (l.reverse.find? (·.1 = (k, t))).map (·.2) := by
  induction l using List.reverseRecOn with
  | nil => simp [nest, lookupNested]
  | append_singleton l e ih =>
    have hnest : nest (l ++ [e]) = setNested (nest l) e := by simp [nest]
    rw [hnest, lookupNested_set, ih, List.reverse_concat]
    by_cases hkt : (k, t) = e.1
    · rw [if_pos hkt, List.find?_cons_of_pos (by simp [hkt])]
      rfl
    · rw [if_neg hkt, List.find?_cons_of_neg (by simpa using fun h => hkt h.symm)]

end

/-- A list of different keys, written one by one. -/
theorem lookup_foldl_insert_iff {l : List (κ × α)} (h : (l.map (·.1)).Nodup) {v : α} :
    (l.foldl (fun m e => m.insert e.1 e.2) (∅ : AList fun _ : κ => α)).lookup k = some v ↔
      (k, v) ∈ l := by
  induction l using List.reverseRecOn with
  | nil => simp
  | append_singleton l e ih =>
    rw [List.map_append, List.nodup_append] at h
    obtain ⟨hl, -, hfresh⟩ := h
    rw [List.foldl_append, List.foldl_cons, List.foldl_nil, List.mem_append, List.mem_singleton]
    by_cases hk : k = e.1
    · subst hk
      rw [AList.lookup_insert]
      constructor
      · intro hv
        obtain rfl := Option.some.inj hv
        exact .inr rfl
      · rintro (hmem | heq)
        · have hold : e.1 ∈ l.map (·.1) := List.mem_map_of_mem (f := (·.1)) hmem
          exact absurd rfl (hfresh _ hold e.1 (by simp))
        · rw [← heq]
    · rw [AList.lookup_insert_ne hk, ih hl]
      constructor
      · exact .inl
      · rintro (hmem | heq)
        · exact hmem
        · exact absurd (congrArg (·.1) heq) hk

/-! ### Groups -/

/-- The elements of each key, for the keys in the order given. -/
def groups (key : α → κ) (keys : List κ) (l : List α) : List (κ × List α) :=
  keys.map fun k => (k, l.filter (key · = k))

/-- **The totals of the groups add up.** -/
theorem sum_groups [AddCommMonoid M] {keys : List κ} (hkeys : keys.Nodup)
    (hall : ∀ a ∈ l, key a ∈ keys) (f : α → M) :
    ((groups key keys l).map fun g => (g.2.map f).sum).sum = (l.map f).sum := by
  unfold groups
  rw [List.map_map, ← List.sum_toFinset _ hkeys]
  induction l with
  | nil => exact Finset.sum_eq_zero fun k _ => rfl
  | cons a l ih =>
    have hmem : key a ∈ keys.toFinset := by simpa using hall a (by simp)
    have hsingle : ∑ k ∈ keys.toFinset, (if key a = k then f a else 0) = f a :=
      Finset.sum_ite_eq_of_mem _ _ (fun _ => f a) hmem
    rw [List.map_cons, List.sum_cons, ← ih fun b hb => hall b (List.mem_cons_of_mem a hb),
      ← hsingle, ← Finset.sum_add_distrib]
    refine Finset.sum_congr rfl fun k _ => ?_
    by_cases hk : key a = k
    · simp [hk]
    · simp [hk]

/-- Some of the groups are the groups of some elements. -/
theorem filter_groups (key : α → κ) (keys : List κ) (l : List α) (p : κ → Bool) :
    (groups key keys l).filter (fun g => p g.1) =
      groups key (keys.filter p) (l.filter fun a => p (key a)) := by
  unfold groups
  rw [List.filter_map]
  refine List.map_congr_left fun k hk => ?_
  have hpk : p k = true := (List.mem_filter.mp hk).2
  rw [List.filter_filter]
  refine congrArg (k, ·) (List.filter_congr fun a _ => ?_)
  by_cases hkey : key a = k
  · simp [hkey, hpk]
  · simp [hkey]

/-- **The groups are the elements**, each in one of them. -/
theorem groups_perm {keys : List κ} (hkeys : keys.Nodup) (hall : ∀ a ∈ l, key a ∈ keys) :
    ((groups key keys l).flatMap (·.2)).Perm l := by
  induction keys generalizing l with
  | nil =>
    cases l with
    | nil => exact List.Perm.refl _
    | cons a l => exact absurd (hall a List.mem_cons_self) List.not_mem_nil
  | cons k keys ih =>
    obtain ⟨hk, hkeys⟩ := List.nodup_cons.mp hkeys
    have hrest : groups key keys l = groups key keys (l.filter (key · ≠ k)) := by
      refine List.map_congr_left fun j hj => ?_
      rw [List.filter_filter]
      refine congrArg (j, ·) (List.filter_congr fun a _ => ?_)
      by_cases hkey : key a = j
      · have hne : j ≠ k := fun h => hk (h ▸ hj)
        simp [hkey, hne]
      · simp [hkey]
    have htail : ((groups key keys l).flatMap (·.2)).Perm (l.filter (key · ≠ k)) := by
      rw [hrest]
      refine ih hkeys fun a ha => ?_
      obtain ⟨ha, hne⟩ := List.mem_filter.mp ha
      exact List.mem_of_ne_of_mem (of_decide_eq_true hne) (hall a ha)
    refine (htail.append_left _).trans ?_
    simpa using List.filter_append_perm (key · = k) l

theorem mem_groups {keys : List κ} {g : κ × List α} (hg : g ∈ groups key keys l) (ha : a ∈ g.2) :
    a ∈ l ∧ key a = g.1 := by
  obtain ⟨k, -, rfl⟩ := List.mem_map.mp hg
  obtain ⟨ha, hkey⟩ := List.mem_filter.mp ha
  exact ⟨ha, of_decide_eq_true hkey⟩

end Dict
