import Mathlib.Data.Finset.Card
import Mathlib.Logic.Function.Iterate
import Mathlib.Logic.Relation

/-!
# Disjoint sets with path halving

Sets of the numbers below `n` as trees: a list has the parent of each number, and a root is
its own.  `find` goes up to the root and halves the path on its way; `union` hangs the root of
one number under that of the other.  Neither ranks nor sizes are kept, so that what bounds the
loop is that there is no cycle.

* `find_spec`: the loop stops, within as many rounds as there are numbers and one more, at the
  root, and no root is changed by it.
* `findEach_spec`: nor by any number of them.
* `union_spec`: the roots after a union.
* `joinAll_spec`: after some unions two numbers have one root if and only if the pairs connect
  them.
-/

namespace DisjointSets

variable {p : List ℕ} {x y a b : ℕ}

/-- The parent of a number; one that is not in the list is its own. -/
def parentOf (p : List ℕ) (x : ℕ) : ℕ := p[x]?.getD x

def IsRoot (p : List ℕ) (x : ℕ) : Prop := parentOf p x = x

instance (p : List ℕ) (x : ℕ) : Decidable (IsRoot p x) := inferInstanceAs (Decidable (_ = _))

/-- The parents are in the list, and there is no cycle. -/
structure WellFormed (p : List ℕ) : Prop where
  bounded : ∀ q ∈ p, q < p.length
  acyclic : ∃ rank : ℕ → ℕ, ∀ x, ¬ IsRoot p x → rank (parentOf p x) < rank x

/-- The root of a number: as many steps as there are numbers lead to it. -/
def rootOf (p : List ℕ) (x : ℕ) : ℕ := (parentOf p)^[p.length] x

/-! ### Parents -/

theorem parentOf_of_le (h : p.length ≤ x) : parentOf p x = x := by
  rw [parentOf, List.getElem?_eq_none h]
  rfl

theorem parentOf_set_self (h : x < p.length) (q : ℕ) : parentOf (p.set x q) x = q := by
  rw [parentOf, List.getElem?_set_self h]
  rfl

theorem parentOf_set_of_ne (h : x ≠ y) (q : ℕ) : parentOf (p.set x q) y = parentOf p y := by
  rw [parentOf, parentOf, List.getElem?_set_ne h]

theorem lt_length_of_not_isRoot (h : ¬ IsRoot p x) : x < p.length :=
  Nat.lt_of_not_le fun hle => h (parentOf_of_le hle)

namespace WellFormed

variable (h : WellFormed p)
include h

theorem parentOf_lt (hx : x < p.length) : parentOf p x < p.length := by
  unfold parentOf
  rw [List.getElem?_eq_getElem hx]
  exact h.bounded _ (List.getElem_mem hx)

/-- The ranks need be no higher than there are numbers. -/
theorem exists_rank : ∃ rank : ℕ → ℕ, (∀ x, rank x ≤ p.length) ∧
    ∀ x, ¬ IsRoot p x → rank (parentOf p x) < rank x := by
  obtain ⟨rank, hrank⟩ := h.acyclic
  -- the number of those that rank below
  refine ⟨fun x => ((Finset.range p.length).filter fun y => rank y < rank x).card, fun x => ?_,
    fun x hx => Finset.card_lt_card ?_⟩
  · exact (Finset.card_filter_le _ _).trans (Finset.card_range _).le
  · have hparent : parentOf p x < p.length := h.parentOf_lt (lt_length_of_not_isRoot hx)
    refine (Finset.ssubset_iff_of_subset fun y hy => ?_).mpr ⟨parentOf p x, ?_, ?_⟩
    · obtain ⟨hmem, hlt⟩ := Finset.mem_filter.mp hy
      exact Finset.mem_filter.mpr ⟨hmem, hlt.trans (hrank x hx)⟩
    · exact Finset.mem_filter.mpr ⟨Finset.mem_range.mpr hparent, hrank x hx⟩
    · exact fun hmem => lt_irrefl _ (Finset.mem_filter.mp hmem).2

/-! ### Roots -/

/-- **The path ends.** -/
theorem isRoot_rootOf (x : ℕ) : IsRoot p (rootOf p x) := by
  obtain ⟨rank, hbound, hrank⟩ := h.exists_rank
  have hstep : ∀ k, IsRoot p ((parentOf p)^[k] x) ∨ rank ((parentOf p)^[k] x) + k ≤ rank x := by
    intro k
    induction k with
    | zero => exact .inr (le_refl _)
    | succ k ih =>
      rw [Function.iterate_succ_apply']
      by_cases hroot : IsRoot p ((parentOf p)^[k] x)
      · exact .inl (by rwa [hroot])
      · have hlt := hrank _ hroot
        exact .inr (by have := ih.resolve_left hroot; omega)
  by_contra hroot
  have hlow := (hstep p.length).resolve_left hroot
  have hbelow := hrank _ hroot
  have hhigh := hbound x
  unfold rootOf at hbelow
  omega

theorem rootOf_parentOf (x : ℕ) : rootOf p (parentOf p x) = rootOf p x := by
  unfold rootOf
  rw [← Function.iterate_succ_apply, Function.iterate_succ_apply']
  exact h.isRoot_rootOf x

theorem rootOf_lt (hx : x < p.length) : rootOf p x < p.length := by
  have hiterate : ∀ k, (parentOf p)^[k] x < p.length := by
    intro k
    induction k with
    | zero => exact hx
    | succ k ih =>
      rw [Function.iterate_succ_apply']
      exact h.parentOf_lt ih
  exact hiterate _

/-- What agrees with the parents and leaves the roots alone is the root. -/
theorem rootOf_eq {g : ℕ → ℕ} (hparent : ∀ x, g (parentOf p x) = g x)
    (hroot : ∀ x, IsRoot p x → g x = x) (x : ℕ) : rootOf p x = g x := by
  have hiterate : ∀ k, g ((parentOf p)^[k] x) = g x := by
    intro k
    induction k with
    | zero => rfl
    | succ k ih => rw [Function.iterate_succ_apply', hparent, ih]
  rw [← hroot _ (h.isRoot_rootOf x)]
  exact hiterate _

end WellFormed

theorem rootOf_of_isRoot (h : IsRoot p x) : rootOf p x = x := Function.iterate_fixed h _

/-! ### Finding the root -/

/-- `parent[x] = parent[parent[x]]`. -/
def halve (p : List ℕ) (x : ℕ) : List ℕ := p.set x (parentOf p (parentOf p x))

/-- The loop of `find`, which gives the parents as it leaves them; `none` if it does not stop in
as many rounds. -/
def findLoop : ℕ → List ℕ → ℕ → Option (List ℕ × ℕ)
  | 0, _, _ => none
  | rounds + 1, p, x =>
    if parentOf p x = x then some (p, x)
    else findLoop rounds (halve p x) (parentOf (halve p x) x)

def find (p : List ℕ) (x : ℕ) : Option (List ℕ × ℕ) := findLoop (p.length + 1) p x

@[simp] theorem length_halve (p : List ℕ) (x : ℕ) : (halve p x).length = p.length :=
  List.length_set

theorem parentOf_halve_self (hx : ¬ IsRoot p x) :
    parentOf (halve p x) x = parentOf p (parentOf p x) :=
  parentOf_set_self (lt_length_of_not_isRoot hx) _

theorem parentOf_halve_of_ne (h : x ≠ y) : parentOf (halve p x) y = parentOf p y :=
  parentOf_set_of_ne h _

/-- The grandparent ranks below. -/
theorem rank_grandparent_lt {rank : ℕ → ℕ}
    (hrank : ∀ x, ¬ IsRoot p x → rank (parentOf p x) < rank x) (hx : ¬ IsRoot p x) :
    rank (parentOf p (parentOf p x)) < rank x := by
  by_cases hparent : IsRoot p (parentOf p x)
  · rw [hparent]
    exact hrank x hx
  · exact (hrank _ hparent).trans (hrank x hx)

/-- What ranks the parents ranks the halved path. -/
theorem rank_halve {rank : ℕ → ℕ} (hrank : ∀ x, ¬ IsRoot p x → rank (parentOf p x) < rank x)
    (hx : ¬ IsRoot p x) (y : ℕ) (hy : ¬ IsRoot (halve p x) y) :
    rank (parentOf (halve p x) y) < rank y := by
  by_cases hyx : x = y
  · subst hyx
    rw [parentOf_halve_self hx]
    exact rank_grandparent_lt hrank hx
  · rw [IsRoot, parentOf_halve_of_ne hyx] at hy
    rw [parentOf_halve_of_ne hyx]
    exact hrank y hy

theorem WellFormed.halve (h : WellFormed p) (hx : ¬ IsRoot p x) : WellFormed (halve p x) where
  bounded q hq := by
    rw [length_halve]
    rcases List.mem_or_eq_of_mem_set hq with hq | rfl
    · exact h.bounded q hq
    · exact h.parentOf_lt (h.parentOf_lt (lt_length_of_not_isRoot hx))
  acyclic := by
    obtain ⟨rank, hrank⟩ := h.acyclic
    exact ⟨rank, rank_halve hrank hx⟩

/-- **Halving a path changes no root.** -/
theorem WellFormed.rootOf_halve (h : WellFormed p) (hx : ¬ IsRoot p x) (y : ℕ) :
    rootOf (DisjointSets.halve p x) y = rootOf p y := by
  obtain ⟨rank, hrank⟩ := h.acyclic
  refine (h.halve hx).rootOf_eq (fun y => ?_) (fun y hy => ?_) y
  · by_cases hyx : x = y
    · subst hyx
      rw [parentOf_halve_self hx, h.rootOf_parentOf, h.rootOf_parentOf]
    · rw [parentOf_halve_of_ne hyx, h.rootOf_parentOf]
  · by_cases hyx : x = y
    · subst hyx
      rw [IsRoot, parentOf_halve_self hx] at hy
      exact absurd (rank_grandparent_lt hrank hx) (by rw [hy]; exact lt_irrefl _)
    · rw [IsRoot, parentOf_halve_of_ne hyx] at hy
      exact rootOf_of_isRoot hy

/-- What a look at the root leaves: other parents, the same roots. -/
structure Kept (p p' : List ℕ) : Prop where
  wellFormed : WellFormed p'
  length_eq : p'.length = p.length
  rootOf_eq : ∀ y, rootOf p' y = rootOf p y

theorem findLoop_spec {rank : ℕ → ℕ} {rounds : ℕ} (h : WellFormed p)
    (hrank : ∀ x, ¬ IsRoot p x → rank (parentOf p x) < rank x) (hrounds : rank x < rounds) :
    ∃ p', findLoop rounds p x = some (p', rootOf p x) ∧ Kept p p' := by
  induction rounds generalizing p x with
  | zero => exact absurd hrounds (Nat.not_lt_zero _)
  | succ rounds ih =>
    unfold findLoop
    by_cases hx : IsRoot p x
    · have hroot : parentOf p x = x := hx
      rw [if_pos hroot, rootOf_of_isRoot hx]
      exact ⟨p, rfl, h, rfl, fun _ => rfl⟩
    · have hgrand := rank_grandparent_lt hrank hx
      have hparent : ¬ parentOf p x = x := hx
      rw [if_neg hparent, parentOf_halve_self hx]
      obtain ⟨p', hfind, hkept⟩ := ih (h.halve hx) (rank_halve hrank hx)
        (x := parentOf p (parentOf p x)) (by omega)
      refine ⟨p', ?_, hkept.wellFormed, hkept.length_eq.trans (length_halve _ _), fun y => ?_⟩
      · rw [hfind, h.rootOf_halve hx, h.rootOf_parentOf, h.rootOf_parentOf]
      · rw [hkept.rootOf_eq, h.rootOf_halve hx]

/-- **The loop stops at the root**, and changes none. -/
theorem find_spec (h : WellFormed p) (x : ℕ) :
    ∃ p', find p x = some (p', rootOf p x) ∧ Kept p p' := by
  obtain ⟨rank, hbound, hrank⟩ := h.exists_rank
  exact findLoop_spec h hrank (Nat.lt_succ_of_le (hbound x))

/-- The root of each of some numbers, looked up in this order. -/
def findEach : List ℕ → List ℕ → Option (List (ℕ × ℕ))
  | _, [] => some []
  | p, x :: rest => do
    let (p, root) ← find p x
    let more ← findEach p rest
    return (root, x) :: more

theorem findEach_spec (h : WellFormed p) (l : List ℕ) :
    findEach p l = some (l.map fun x => (rootOf p x, x)) := by
  induction l generalizing p with
  | nil => rfl
  | cons x rest ih =>
    obtain ⟨p', hfind, hkept⟩ := find_spec h x
    unfold findEach
    rw [hfind]
    show (findEach p' rest).bind _ = _
    rw [ih hkept.wellFormed]
    simp only [hkept.rootOf_eq]
    rfl

/-! ### Joining two sets -/

/-- `parent[find(a)] = find(b)`; the right side first. -/
def union (p : List ℕ) (a b : ℕ) : Option (List ℕ) := do
  let (p, rootB) ← find p b
  let (p, rootA) ← find p a
  return p.set rootA rootB

theorem parentOf_set (ha : a < p.length) (b y : ℕ) :
    parentOf (p.set a b) y = if a = y then b else parentOf p y := by
  split_ifs with hy
  · rw [← hy]
    exact parentOf_set_self ha _
  · exact parentOf_set_of_ne hy _

/-- A root that is hung under itself stays one. -/
theorem set_self_of_isRoot (ha : a < p.length) (hroot : IsRoot p a) : p.set a a = p := by
  have hget : p[a] = a := by
    have hparent : parentOf p a = a := hroot
    rwa [parentOf, List.getElem?_eq_getElem ha] at hparent
  nth_rewrite 2 [← hget]
  exact List.set_getElem_self ha

/-- One root under another: the ranks below it are raised above that of its new parent. -/
theorem WellFormed.set (h : WellFormed p) (ha : a < p.length) (hb : b < p.length) (hab : a ≠ b)
    (hroota : IsRoot p a) (hrootb : IsRoot p b) : WellFormed (p.set a b) := by
  obtain ⟨rank, hrank⟩ := h.acyclic
  refine ⟨fun q hq => ?_, fun y => if rootOf p y = a then rank y + rank b + 1 else rank y,
    fun y hy => ?_⟩
  · rw [List.length_set]
    rcases List.mem_or_eq_of_mem_set hq with hq | rfl
    · exact h.bounded q hq
    · exact hb
  · rw [IsRoot, parentOf_set ha] at hy
    rw [parentOf_set ha]
    dsimp only
    by_cases hay : a = y
    · subst hay
      rw [if_pos rfl, rootOf_of_isRoot hrootb, rootOf_of_isRoot hroota, if_neg hab.symm,
        if_pos rfl]
      omega
    · rw [if_neg hay] at hy ⊢
      have hlt := hrank y hy
      rw [h.rootOf_parentOf]
      split_ifs
      · omega
      · exact hlt

/-- What had the one root gets the other. -/
theorem WellFormed.rootOf_set (h : WellFormed p) (hwf : WellFormed (p.set a b))
    (ha : a < p.length) (hab : a ≠ b) (hroota : IsRoot p a) (hrootb : IsRoot p b) :
    ∀ y, rootOf (p.set a b) y = if rootOf p y = a then b else rootOf p y := by
  refine hwf.rootOf_eq (fun y => ?_) (fun y hy => ?_)
  · rw [parentOf_set ha]
    by_cases hay : a = y
    · subst hay
      rw [if_pos rfl, rootOf_of_isRoot hrootb, rootOf_of_isRoot hroota, if_pos rfl, ite_self]
    · rw [if_neg hay, h.rootOf_parentOf]
  · rw [IsRoot, parentOf_set ha] at hy
    by_cases hay : a = y
    · rw [if_pos hay] at hy
      exact absurd (hay.trans hy.symm) hab
    · rw [if_neg hay] at hy
      rw [rootOf_of_isRoot hy, if_neg (Ne.symm hay)]

/-- One root is hung under another, or under itself. -/
theorem WellFormed.link (h : WellFormed p) (ha : a < p.length) (hb : b < p.length)
    (hroota : IsRoot p a) (hrootb : IsRoot p b) :
    WellFormed (p.set a b) ∧
      ∀ y, rootOf (p.set a b) y = if rootOf p y = a then b else rootOf p y := by
  by_cases hab : a = b
  · subst hab
    rw [set_self_of_isRoot ha hroota]
    refine ⟨h, fun y => ?_⟩
    split_ifs with hy
    · exact hy
    · rfl
  · have hwf := h.set ha hb hab hroota hrootb
    exact ⟨hwf, h.rootOf_set hwf ha hab hroota hrootb⟩

/-- **After a union the root of the one is the root of the other.** -/
theorem union_spec (h : WellFormed p) (ha : a < p.length) (hb : b < p.length) :
    ∃ p', union p a b = some p' ∧ WellFormed p' ∧ p'.length = p.length ∧
      ∀ y, rootOf p' y = if rootOf p y = rootOf p a then rootOf p b else rootOf p y := by
  obtain ⟨p₁, hfind, hkept⟩ := find_spec h b
  obtain ⟨p₂, hfind', hkept'⟩ := find_spec hkept.wellFormed a
  have hroots : ∀ y, rootOf p₂ y = rootOf p y := fun y =>
    (hkept'.rootOf_eq y).trans (hkept.rootOf_eq y)
  have hlength : p₂.length = p.length := hkept'.length_eq.trans hkept.length_eq
  have hwf := hkept'.wellFormed
  have hroota := hwf.isRoot_rootOf a
  have hrootb := hwf.isRoot_rootOf b
  have hlta := hwf.rootOf_lt (hlength ▸ ha)
  have hltb := hwf.rootOf_lt (hlength ▸ hb)
  rw [hroots] at hroota hrootb hlta hltb
  obtain ⟨hlinked, hlink⟩ := hwf.link hlta hltb hroota hrootb
  refine ⟨p₂.set (rootOf p a) (rootOf p b), ?_, hlinked, ?_, fun y => ?_⟩
  · unfold union
    rw [hfind]
    show (find p₁ a).bind _ = _
    rw [hfind', hkept.rootOf_eq]
    rfl
  · rw [List.length_set, hlength]
  · rw [hlink, hroots]

/-! ### Components -/

/-- Every number by itself. -/
def start (n : ℕ) : List ℕ := List.range n

/-- One union after the other. -/
def joinAll (p : List ℕ) (pairs : List (ℕ × ℕ)) : Option (List ℕ) :=
  pairs.foldlM (fun p pair => union p pair.1 pair.2) p

theorem isRoot_start (n x : ℕ) : IsRoot (start n) x := by
  unfold IsRoot parentOf start
  by_cases hx : x < n
  · rw [List.getElem?_range hx]
    rfl
  · rw [List.getElem?_eq_none (by simpa using hx)]
    rfl

theorem wellFormed_start (n : ℕ) : WellFormed (start n) where
  bounded q hq := by
    rw [start, List.length_range]
    exact List.mem_range.mp hq
  acyclic := ⟨id, fun x hx => absurd (isRoot_start n x) hx⟩

/-- The pairs connect two numbers. -/
def Connected (pairs : List (ℕ × ℕ)) : ℕ → ℕ → Prop :=
  Relation.EqvGen fun x y => (x, y) ∈ pairs

theorem Connected.mono {pairs pairs' : List (ℕ × ℕ)} (hle : pairs ⊆ pairs')
    (h : Connected pairs x y) : Connected pairs' x y :=
  Relation.EqvGen.mono (fun _ _ hmem => hle hmem) _ _ h

/-- What is the same for the numbers of each pair is so for those they connect. -/
theorem Connected.congr {γ : Type*} {f : ℕ → γ} {pairs : List (ℕ × ℕ)}
    (hpairs : ∀ e ∈ pairs, f e.1 = f e.2) (h : Connected pairs x y) : f x = f y := by
  induction h with
  | rel x y hmem => exact hpairs _ hmem
  | refl => rfl
  | symm _ _ _ ih => exact ih.symm
  | trans _ _ _ _ _ ih ih' => exact ih.trans ih'

/-- **Two numbers have one root after the unions if and only if the pairs connect them.** -/
theorem joinAll_spec {n : ℕ} (pairs : List (ℕ × ℕ)) (hpairs : ∀ e ∈ pairs, e.1 < n ∧ e.2 < n) :
    ∃ p, joinAll (start n) pairs = some p ∧ WellFormed p ∧ p.length = n ∧
      ∀ x y, rootOf p x = rootOf p y ↔ Connected pairs x y := by
  induction pairs using List.reverseRecOn with
  | nil =>
    refine ⟨start n, rfl, wellFormed_start n, List.length_range, fun x y => ?_⟩
    rw [rootOf_of_isRoot (isRoot_start n x), rootOf_of_isRoot (isRoot_start n y)]
    constructor
    · rintro rfl
      exact .refl _
    · exact Connected.congr (f := id) fun _ hmem => absurd hmem List.not_mem_nil
  | append_singleton pairs e ih =>
    obtain ⟨p, hjoin, hwf, hlength, hroots⟩ := ih fun e' he => hpairs e' (List.mem_append_left _ he)
    obtain ⟨ha, hb⟩ := hpairs e (List.mem_append_right _ (List.mem_singleton_self e))
    obtain ⟨p', hunion, hwf', hlength', hroot'⟩ := union_spec hwf (hlength ▸ ha) (hlength ▸ hb)
    refine ⟨p', ?_, hwf', hlength'.trans hlength, fun x y => ?_⟩
    · rw [joinAll, List.foldlM_append]
      show (joinAll (start n) pairs).bind _ = _
      rw [hjoin]
      exact (bind_pure _).trans hunion
    have hold : ∀ {x y}, Connected pairs x y → Connected (pairs ++ [e]) x y := fun h =>
      h.mono (List.subset_append_left _ _)
    have hlink : Connected (pairs ++ [e]) e.1 e.2 :=
      .rel _ _ (List.mem_append_right _ (List.mem_singleton_self e))
    constructor
    · intro hsame
      rw [hroot', hroot'] at hsame
      split_ifs at hsame with hx hy hy
      · exact hold ((hroots x y).mp (hx.trans hy.symm))
      · -- `x` is with the first of the pair, `y` with the second
        exact .trans _ _ _ (hold ((hroots _ _).mp hx))
          (.trans _ _ _ hlink (hold ((hroots _ _).mp hsame)))
      · exact .trans _ _ _ (hold ((hroots _ _).mp hsame))
          (.trans _ _ _ (.symm _ _ hlink) (.symm _ _ (hold ((hroots _ _).mp hy))))
      · exact hold ((hroots x y).mp hsame)
    · refine Connected.congr fun e' hmem => ?_
      rcases List.mem_append.mp hmem with hmem | hmem
      · rw [hroot', hroot', (hroots e'.1 e'.2).mpr (.rel _ _ hmem)]
      · obtain rfl := List.mem_singleton.mp hmem
        rw [hroot', hroot', if_pos rfl, ite_eq_right_iff.mpr fun _ => rfl]

end DisjointSets
