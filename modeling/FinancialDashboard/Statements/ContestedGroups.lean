import FinancialDashboard.Lib.DisjointSets
import FinancialDashboard.Lib.OrderedDict
import FinancialDashboard.Statements.CreditCard

/-!
# The ties of contested winners

`_resolve_contested_by_counterparty` of `services/statements/cc.py`: contested winners whose
candidates overlap are of one tie, and a tie whose narrations tell the candidates apart is
reassigned.  The ties are grown by the union-find of `Lib/DisjointSets`; which row names which
candidate is a parameter.

* `contestedGroups_components`: the loops stop, the ties are the connected components of the
  winners that share a candidate, and within a tie no candidate is assigned twice.
* `exists_resolveContested`: nor is it in two.
* `tieRoots_eq`: the ties of the reconciler's model are those of the union-find.
-/

namespace FinancialDashboard.Statements

open DisjointSets (Connected WellFormed findEach joinAll rootOf)

/-- A contested entry: its row and the transaction that the greedy pass has given it. -/
structure ContestedEntry where
  stmtIdx : Nat
  dbTxnId : Nat
  deriving DecidableEq, Repr

/-- `candidate_sets`, by row. -/
abbrev CandidateSets := OrderedDict Nat (List Nat)

/-- `candidate_sets.get(stmt_idx, set())`. -/
def CandidateSets.reach (sets : CandidateSets) (stmtIdx : Nat) : List Nat :=
  (OrderedDict.get? sets stmtIdx).getD []

/-- `si & sj`. -/
def overlaps (sets : CandidateSets) (a b : ContestedEntry) : Bool :=
  (sets.reach a.stmtIdx).any (· ∈ sets.reach b.stmtIdx)

/-- Two places of a list hold what is related. -/
def areRelated {α : Type} (related : α → α → Bool) (l : List α) (e : Nat × Nat) : Bool :=
  match l[e.1]?, l[e.2]? with
  | some a, some b => related a b
  | _, _ => false

/-- The pairs of related places, in the order of the two loops. -/
def relatedPairs {α : Type} (related : α → α → Bool) (l : List α) : List (Nat × Nat) :=
  (indexPairs l.length).filter (areRelated related l)

/-- The members of each group, by their places. -/
def contestedGroups (sets : CandidateSets) (contested : List ContestedEntry) :
    Option (List (List Nat)) := do
  let parent ← joinAll (DisjointSets.start contested.length)
    (relatedPairs (overlaps sets) contested)
  let found ← findEach parent (List.range contested.length)
  return (OrderedDict.collect found).items.map (·.2)

section

variable (names : Nat → Nat → Bool) (sets : CandidateSets)

/-- The one candidate that a row can reach and names, if the group has won it. -/
def assignRow (groupCandidateIds : List Nat) (stmtIdx : Nat) : Option (Nat × Nat) :=
  match ((sets.reach stmtIdx).filter (names stmtIdx)).dedup with
  | [cid] => if cid ∈ groupCandidateIds then some (stmtIdx, cid) else none
  | _ => none

/-- `contesting_rows`. -/
def contestingRowIds (groupCandidateIds : List Nat) : List Nat :=
  (OrderedDict.keys sets).filter fun stmtIdx =>
    (sets.reach stmtIdx).any (· ∈ groupCandidateIds)

/-- The rows that reach and name a candidate. -/
def namedBy (groupCandidateIds : List Nat) (cid : Nat) : List Nat :=
  (contestingRowIds sets groupCandidateIds).filter fun stmtIdx =>
    cid ∈ sets.reach stmtIdx && names stmtIdx cid

/-- What a group of two or more is reassigned, if it resolves. -/
def groupAssignment (entries : List ContestedEntry) : Option (List (Nat × Nat)) :=
  let groupRows := (entries.map (·.stmtIdx)).dedup
  let groupCandidateIds := entries.map (·.dbTxnId)
  if entries.length < 2 then none
  else match groupRows.mapM (assignRow names sets groupCandidateIds) with
    | none => none
    | some assignment =>
      if groupCandidateIds.all (· ∈ assignment.map Prod.snd) &&
          groupCandidateIds.all fun cid => (namedBy names sets groupCandidateIds cid).length = 1
      then some assignment
      else none

/-- The entries of the members of a group. -/
def entriesAt (contested : List ContestedEntry) (members : List Nat) : List ContestedEntry :=
  members.filterMap (contested[·]?)

/-- `_resolve_contested_by_counterparty`: the rows that are reassigned, with their candidates. -/
def resolveContested (contested : List ContestedEntry) : Option (List (Nat × Nat)) :=
  if contested.length < 2 then some []
  else do
    let groups ← contestedGroups sets contested
    return groups.flatMap fun members =>
      (groupAssignment names sets (entriesAt contested members)).getD []

end

/-! ### Pairs -/

theorem mem_indexPairs {n i j : Nat} : (i, j) ∈ indexPairs n ↔ i < j ∧ j < n := by
  unfold indexPairs
  simp only [List.mem_flatMap, List.mem_range, List.mem_map, List.mem_filter, decide_eq_true_eq]
  constructor
  · rintro ⟨i', -, j', ⟨hj, hlt⟩, heq⟩
    obtain ⟨rfl, rfl⟩ := Prod.mk.inj heq
    exact ⟨hlt, hj⟩
  · rintro ⟨hlt, hj⟩
    exact ⟨i, hlt.trans hj, j, ⟨hj, hlt⟩, rfl⟩

section

variable {α : Type} {related : α → α → Bool} {l : List α} {i j : Nat}

def RelatedAt (related : α → α → Bool) (l : List α) (i j : Nat) : Prop :=
  ∃ a b, l[i]? = some a ∧ l[j]? = some b ∧ related a b = true

theorem mem_relatedPairs : (i, j) ∈ relatedPairs related l ↔ i < j ∧ RelatedAt related l i j := by
  unfold relatedPairs areRelated
  rw [List.mem_filter, mem_indexPairs]
  constructor
  · rintro ⟨⟨hlt, -⟩, hrelated⟩
    split at hrelated
    next a b ha hb => exact ⟨hlt, a, b, ha, hb, hrelated⟩
    next => cases hrelated
  · rintro ⟨hlt, a, b, ha, hb, hrelated⟩
    obtain ⟨hj, -⟩ := List.getElem?_eq_some_iff.mp hb
    rw [ha, hb]
    exact ⟨⟨hlt, hj⟩, hrelated⟩

theorem lt_of_mem_relatedPairs : ∀ e ∈ relatedPairs related l, e.1 < l.length ∧ e.2 < l.length := by
  rintro ⟨i, j⟩ he
  obtain ⟨hlt, hj⟩ := mem_indexPairs.mp (List.mem_of_mem_filter he)
  exact ⟨hlt.trans hj, hj⟩

/-- The pairs in order connect what a symmetric relation does. -/
theorem connected_relatedPairs (hsymm : ∀ a b, related a b = true → related b a = true) :
    Connected (relatedPairs related l) i j ↔ Relation.EqvGen (RelatedAt related l) i j := by
  constructor
  · exact fun h => Relation.EqvGen.mono (fun _ _ hmem => (mem_relatedPairs.mp hmem).2) _ _ h
  · intro h
    induction h with
    | rel i j hrelated =>
      rcases Nat.lt_trichotomy i j with hlt | rfl | hlt
      · exact .rel _ _ (mem_relatedPairs.mpr ⟨hlt, hrelated⟩)
      · exact .refl _
      · obtain ⟨a, b, ha, hb, hab⟩ := hrelated
        exact .symm _ _ (.rel _ _ (mem_relatedPairs.mpr ⟨hlt, b, a, hb, ha, hsymm a b hab⟩))
    | refl => exact .refl _
    | symm _ _ _ ih => exact .symm _ _ ih
    | trans _ _ _ _ _ ih ih' => exact .trans _ _ _ ih ih'

end

/-! ### Groups -/

section

variable {sets : CandidateSets} {contested : List ContestedEntry} {i j : Nat}

def SharesCandidate (sets : CandidateSets) (contested : List ContestedEntry) (i j : Nat) : Prop :=
  ∃ a b, contested[i]? = some a ∧ contested[j]? = some b ∧
    ∃ cid, cid ∈ sets.reach a.stmtIdx ∧ cid ∈ sets.reach b.stmtIdx

theorem relatedAt_overlaps :
    RelatedAt (overlaps sets) contested i j ↔ SharesCandidate sets contested i j := by
  refine exists_congr fun a => exists_congr fun b => and_congr_right fun _ =>
    and_congr_right fun _ => ?_
  unfold overlaps
  rw [List.any_eq_true]
  exact exists_congr fun cid => and_congr_right fun _ => decide_eq_true_iff

theorem overlaps_symm (a b : ContestedEntry) (h : overlaps sets a b = true) :
    overlaps sets b a = true := by
  obtain ⟨cid, ha, hb⟩ := List.any_eq_true.mp h
  exact List.any_eq_true.mpr ⟨cid, of_decide_eq_true hb, decide_eq_true ha⟩

/-- **The groups are the classes of one root.** -/
theorem exists_contestedGroups (sets : CandidateSets) (contested : List ContestedEntry) :
    ∃ groups p, contestedGroups sets contested = some groups ∧
      (∀ i j, rootOf p i = rootOf p j ↔
        Relation.EqvGen (SharesCandidate sets contested) i j) ∧
      groups = OrderedDict.classes (rootOf p) (List.range contested.length) := by
  obtain ⟨p, hjoin, hwf, -, hroots⟩ := DisjointSets.joinAll_spec
    (relatedPairs (overlaps sets) contested) lt_of_mem_relatedPairs
  refine ⟨_, p, ?_, fun i j => ?_, rfl⟩
  · unfold contestedGroups
    rw [hjoin]
    show (findEach p _).bind _ = _
    rw [DisjointSets.findEach_spec hwf]
    rfl
  · have hrelation : RelatedAt (overlaps sets) contested = SharesCandidate sets contested := by
      funext i j
      exact propext relatedAt_overlaps
    rw [hroots, connected_relatedPairs overlaps_symm, hrelation]

/-- The groups of the contested winners. -/
structure Components (sets : CandidateSets) (contested : List ContestedEntry)
    (groups : List (List Nat)) : Prop where
  /-- Every winner is in one group, and once. -/
  perm_range : groups.flatten.Perm (List.range contested.length)
  nil_notMem : [] ∉ groups
  mem_iff : ∀ members ∈ groups, ∀ i ∈ members, ∀ j < contested.length,
    (j ∈ members ↔ Relation.EqvGen (SharesCandidate sets contested) i j)
  disjoint : groups.Pairwise fun members members' =>
    ∀ a ∈ entriesAt contested members, ∀ b ∈ entriesAt contested members',
      List.Disjoint (sets.reach a.stmtIdx) (sets.reach b.stmtIdx)

theorem mem_entriesAt {members : List Nat} {a : ContestedEntry} :
    a ∈ entriesAt contested members ↔ ∃ i ∈ members, contested[i]? = some a :=
  List.mem_filterMap

/-- **The groups are the connected components.** -/
theorem exists_components (sets : CandidateSets) (contested : List ContestedEntry) :
    ∃ groups, contestedGroups sets contested = some groups ∧
      Components sets contested groups := by
  obtain ⟨groups, p, hgroups, hroots, rfl⟩ := exists_contestedGroups sets contested
  refine ⟨_, hgroups, OrderedDict.perm_flatten_classes _ List.nodup_range,
    OrderedDict.nil_notMem_classes _ _, fun members hmem i hi j hj => ?_, ?_⟩
  · obtain ⟨k, -, rfl⟩ := OrderedDict.mem_classes.mp hmem
    have hroot : rootOf p i = rootOf p k := of_decide_eq_true (List.mem_filter.mp hi).2
    rw [List.mem_filter, decide_eq_true_iff, ← hroots, hroot]
    exact ⟨fun h => h.2.symm, fun h => ⟨List.mem_range.mpr hj, h.symm⟩⟩
  · refine (OrderedDict.pairwise_classes _ _).imp fun hapart a ha b hb cid hcid hcid' => ?_
    obtain ⟨i, hi, hai⟩ := mem_entriesAt.mp ha
    obtain ⟨j, hj, hbj⟩ := mem_entriesAt.mp hb
    exact hapart i hi j hj ((hroots i j).mpr (.rel _ _ ⟨a, b, hai, hbj, cid, hcid, hcid'⟩))

end

/-! ### Reassignments -/

section

variable {names : Nat → Nat → Bool} {sets : CandidateSets}
  {groupCandidateIds : List Nat} {entries : List ContestedEntry}
  {assignment : List (Nat × Nat)} {stmtIdx cid : Nat} {e : Nat × Nat}

theorem assignRow_eq_some (h : assignRow names sets groupCandidateIds stmtIdx = some e) :
    e.1 = stmtIdx ∧ e.2 ∈ sets.reach stmtIdx ∧ names stmtIdx e.2 = true ∧
      e.2 ∈ groupCandidateIds := by
  unfold assignRow at h
  split at h
  next cid hnamed =>
    split_ifs at h with hwon
    obtain rfl := Option.some.inj h
    have hmem : cid ∈ ((sets.reach stmtIdx).filter (names stmtIdx)).dedup := by
      rw [hnamed]
      exact List.mem_singleton_self cid
    obtain ⟨hreach, hname⟩ := List.mem_filter.mp (List.mem_dedup.mp hmem)
    exact ⟨rfl, hreach, hname, hwon⟩
  next => cases h

/-- What a reassignment is, when there is one. -/
structure Reassigned (names : Nat → Nat → Bool) (sets : CandidateSets)
    (entries : List ContestedEntry) (assignment : List (Nat × Nat)) : Prop where
  nodup_rows : (assignment.map Prod.fst).Nodup
  nodup_candidates : (assignment.map Prod.snd).Nodup
  row_mem : ∀ e ∈ assignment, e.1 ∈ entries.map (·.stmtIdx)
  won : ∀ cid, cid ∈ assignment.map Prod.snd ↔ cid ∈ entries.map (·.dbTxnId)
  reach : ∀ e ∈ assignment, e.2 ∈ sets.reach e.1
  named : ∀ e ∈ assignment, names e.1 e.2 = true

theorem assignRows_eq_some {rows : List Nat}
    (h : rows.mapM (assignRow names sets groupCandidateIds) = some assignment) :
    assignment.map Prod.fst = rows ∧
      ∀ e ∈ assignment, e.2 ∈ sets.reach e.1 ∧ names e.1 e.2 = true ∧
        e.2 ∈ groupCandidateIds := by
  induction rows generalizing assignment with
  | nil =>
    obtain rfl := Option.some.inj h
    exact ⟨rfl, fun _ he => absurd he List.not_mem_nil⟩
  | cons stmtIdx rows ih =>
    rw [List.mapM_cons] at h
    obtain ⟨e, hrow, h⟩ := Option.bind_eq_some_iff.mp h
    obtain ⟨rest, hrest, h⟩ := Option.bind_eq_some_iff.mp h
    obtain rfl := Option.some.inj h
    obtain ⟨rfl, hassigned⟩ := assignRow_eq_some hrow
    obtain ⟨hrows, hall⟩ := ih hrest
    refine ⟨congrArg (e.1 :: ·) hrows, fun e' he => ?_⟩
    rcases List.mem_cons.mp he with rfl | he
    · exact hassigned
    · exact hall e' he

theorem mem_namedBy {row : Nat} (hreach : cid ∈ sets.reach row) (hwon : cid ∈ groupCandidateIds)
    (hname : names row cid = true) : row ∈ namedBy names sets groupCandidateIds cid := by
  have hkey : row ∈ OrderedDict.keys sets := by
    refine OrderedDict.mem_keys_iff.mpr fun hnone => ?_
    rw [CandidateSets.reach, hnone] at hreach
    exact absurd hreach List.not_mem_nil
  refine List.mem_filter.mpr ⟨List.mem_filter.mpr ⟨hkey, ?_⟩, ?_⟩
  · exact List.any_eq_true.mpr ⟨cid, hreach, decide_eq_true hwon⟩
  · rw [hname, Bool.and_true]
    exact decide_eq_true hreach

/-- **A reassignment is one to one.** -/
theorem reassigned_of_groupAssignment
    (h : groupAssignment names sets entries = some assignment) :
    Reassigned names sets entries assignment := by
  unfold groupAssignment at h
  dsimp only at h
  split_ifs at h
  split at h
  next => cases h
  next rows hassign =>
    split_ifs at h with hcheck
    obtain rfl := Option.some.inj h
    rw [Bool.and_eq_true, List.all_eq_true, List.all_eq_true] at hcheck
    obtain ⟨hvalues, hunique⟩ := hcheck
    obtain ⟨hrows, hassigned⟩ := assignRows_eq_some hassign
    have hnodup : (rows.map Prod.fst).Nodup := by
      rw [hrows]
      exact List.nodup_dedup _
    refine ⟨hnodup, ?_, fun e he => ?_, fun cid => ⟨fun hcid => ?_, fun hcid => ?_⟩,
      fun e he => (hassigned e he).1, fun e he => (hassigned e he).2.1⟩
    · -- two rows of one candidate would both name it
      refine hnodup.of_map.map_on fun e he e' he' heq => ?_
      obtain ⟨hreach, hname, hwon⟩ := hassigned e he
      obtain ⟨hreach', hname', -⟩ := hassigned e' he'
      obtain ⟨row, hone⟩ := List.length_eq_one_iff.mp (of_decide_eq_true (hunique _ hwon))
      have hmem := mem_namedBy hreach hwon hname
      have hmem' := mem_namedBy (heq ▸ hreach') hwon (heq ▸ hname')
      rw [hone, List.mem_singleton] at hmem hmem'
      exact Prod.ext (hmem.trans hmem'.symm) heq
    · exact List.mem_dedup.mp (hrows ▸ List.mem_map_of_mem he)
    · obtain ⟨e, he, rfl⟩ := List.mem_map.mp hcid
      exact (hassigned e he).2.2
    · exact of_decide_eq_true (hvalues cid hcid)

end

/-- **The groups are the connected components of the winners that share a candidate**, and the
reassignment of each is one to one, onto the candidates that it has won. -/
theorem contestedGroups_components (names : Nat → Nat → Bool) (sets : CandidateSets)
    (contested : List ContestedEntry) :
    ∃ groups, contestedGroups sets contested = some groups ∧
      Components sets contested groups ∧
      ∀ members ∈ groups, ∀ assignment,
        groupAssignment names sets (entriesAt contested members) = some assignment →
          Reassigned names sets (entriesAt contested members) assignment := by
  obtain ⟨groups, hgroups, hcomponents⟩ := exists_components sets contested
  exact ⟨groups, hgroups, hcomponents, fun _ _ _ h => reassigned_of_groupAssignment h⟩

section

variable {names : Nat → Nat → Bool} {entries : List ContestedEntry} {e : Nat × Nat}

/-- What a group reassigns, if anything. -/
theorem reassigned_of_mem (he : e ∈ (groupAssignment names sets entries).getD []) :
    Reassigned names sets entries ((groupAssignment names sets entries).getD []) := by
  cases h : groupAssignment names sets entries with
  | none =>
    rw [h] at he
    cases he
  | some assignment => exact reassigned_of_groupAssignment h

variable {groups : List (List Nat)}

/-- Two groups have no candidate in common: what one reassigns no row of the other reaches. -/
theorem Components.apart (h : Components sets contested groups) (names : Nat → Nat → Bool) :
    groups.Pairwise fun members members' =>
      ∀ e ∈ (groupAssignment names sets (entriesAt contested members)).getD [],
      ∀ e' ∈ (groupAssignment names sets (entriesAt contested members')).getD [],
        e.2 ∉ sets.reach e'.1 := by
  refine h.disjoint.imp fun hdisjoint e he e' he' hreach => ?_
  obtain ⟨a, ha, hrow⟩ := List.mem_map.mp ((reassigned_of_mem he).row_mem e he)
  obtain ⟨b, hb, hrow'⟩ := List.mem_map.mp ((reassigned_of_mem he').row_mem e' he')
  refine hdisjoint a ha b hb ?_ (hrow' ▸ hreach)
  rw [hrow]
  exact (reassigned_of_mem he).reach e he

/-- A key of the reassignments is without repetition where it is so within each group, and where
two reassignments of one key are of rows that reach one candidate. -/
theorem Components.nodup_map (h : Components sets contested groups) (key : Nat × Nat → Nat)
    (hwithin : ∀ entries assignment, Reassigned names sets entries assignment →
      (assignment.map key).Nodup)
    (hacross : ∀ e e', key e = key e' → e.2 ∈ sets.reach e.1 → e'.2 ∈ sets.reach e'.1 →
      e.2 ∈ sets.reach e'.1) :
    ((groups.flatMap fun members =>
      (groupAssignment names sets (entriesAt contested members)).getD []).map key).Nodup := by
  rw [List.map_flatMap, List.nodup_flatMap]
  refine ⟨fun members _ => ?_, (h.apart names).imp fun hapart k hk hk' => ?_⟩
  · cases hassigned : (groupAssignment names sets (entriesAt contested members)).getD [] with
    | nil => exact List.nodup_nil
    | cons e rest =>
      have he : e ∈ (groupAssignment names sets (entriesAt contested members)).getD [] := by
        rw [hassigned]
        exact List.mem_cons_self
      exact hassigned ▸ hwithin _ _ (reassigned_of_mem he)
  · obtain ⟨e, he, rfl⟩ := List.mem_map.mp hk
    obtain ⟨e', he', hsame⟩ := List.mem_map.mp hk'
    exact hapart e he e' he' (hacross e e' hsame.symm ((reassigned_of_mem he).reach e he)
      ((reassigned_of_mem he').reach e' he'))

end

/-- **No row and no candidate is reassigned twice**, within a group or in two. -/
theorem exists_resolveContested (names : Nat → Nat → Bool) (sets : CandidateSets)
    (contested : List ContestedEntry) :
    ∃ assignment, resolveContested names sets contested = some assignment ∧
      (assignment.map Prod.fst).Nodup ∧ (assignment.map Prod.snd).Nodup ∧
      ∀ e ∈ assignment, e.2 ∈ sets.reach e.1 ∧ names e.1 e.2 = true := by
  obtain ⟨groups, hgroups, hcomponents⟩ := exists_components sets contested
  by_cases hfew : contested.length < 2
  · refine ⟨[], if_pos hfew, List.nodup_nil, List.nodup_nil, fun e he => ?_⟩
    exact absurd he List.not_mem_nil
  · refine ⟨groups.flatMap fun members =>
      (groupAssignment names sets (entriesAt contested members)).getD [], ?_, ?_, ?_, fun e he => ?_⟩
    · unfold resolveContested
      rw [if_neg hfew, hgroups]
      rfl
    · exact hcomponents.nodup_map Prod.fst (fun _ _ h => h.nodup_rows)
        fun e e' hsame hreach _ => hsame ▸ hreach
    · exact hcomponents.nodup_map Prod.snd (fun _ _ h => h.nodup_candidates)
        fun e e' hsame _ hreach => hsame ▸ hreach
    · obtain ⟨members, -, he⟩ := List.mem_flatMap.mp he
      exact ⟨(reassigned_of_mem he).reach e he, (reassigned_of_mem he).named e he⟩

/-! ### The roots of the reconciler -/

section

variable {p : List Nat}

/-- The roots of the numbers below `n`. -/
def rootsBelow (p : List Nat) (n : Nat) : List Nat := (List.range n).map (rootOf p)

theorem union_rootsBelow {p' : List Nat} {n a b : Nat} (ha : a < n) (hb : b < n)
    (hroots : ∀ y, rootOf p' y = if rootOf p y = rootOf p a then rootOf p b else rootOf p y) :
    union (rootsBelow p n) a b = rootsBelow p' n := by
  have hget : ∀ {x}, x < n → (rootsBelow p n)[x]? = some (rootOf p x) := by
    intro x hx
    rw [rootsBelow, List.getElem?_map, List.getElem?_range hx]
    rfl
  unfold union
  rw [hget ha, hget hb]
  dsimp only
  rw [rootsBelow, rootsBelow, List.map_map]
  exact List.map_congr_left fun y _ => (hroots y).symm

variable [PyText.UnicodeTables] [Readers] {db : AccountRows} {contested : List MatchedEntry}

/-- One pair of the reconciler's loop. -/
def tieStep (db : AccountRows) (contested : List MatchedEntry) (roots : List Nat)
    (pair : Nat × Nat) : List Nat :=
  match contested[pair.1]?, contested[pair.2]? with
  | some a, some b => if sameTie db a b then union roots pair.1 pair.2 else roots
  | _, _ => roots

theorem tieRoots_eq_foldl : tieRoots db contested =
    (indexPairs contested.length).foldl (tieStep db contested) (List.range contested.length) := rfl

/-- The loop keeps the roots that the union-find has. -/
theorem foldl_tieStep (db : AccountRows) {pairs : List (Nat × Nat)}
    (hpairs : ∀ e ∈ pairs, e.1 < contested.length ∧ e.2 < contested.length)
    (hwf : WellFormed p) (hlength : p.length = contested.length) :
    ∃ p', joinAll p (pairs.filter (areRelated (sameTie db) contested)) = some p' ∧
      pairs.foldl (tieStep db contested) (rootsBelow p contested.length) =
        rootsBelow p' contested.length := by
  induction pairs generalizing p with
  | nil => exact ⟨p, rfl, rfl⟩
  | cons e pairs ih =>
    obtain ⟨i, j⟩ := e
    obtain ⟨⟨hi, hj⟩, hpairs⟩ := List.forall_mem_cons.mp hpairs
    have hrelated : areRelated (sameTie db) contested (i, j) =
        sameTie db contested[i] contested[j] := by
      unfold areRelated
      rw [List.getElem?_eq_getElem hi, List.getElem?_eq_getElem hj]
    have hstep (roots : List Nat) : tieStep db contested roots (i, j) =
        if sameTie db contested[i] contested[j] then union roots i j else roots := by
      unfold tieStep
      rw [List.getElem?_eq_getElem hi, List.getElem?_eq_getElem hj]
    rw [List.foldl_cons, hstep]
    by_cases htie : sameTie db contested[i] contested[j] = true
    · obtain ⟨p', hunion, hwf', hlength', hroots⟩ :=
        DisjointSets.union_spec hwf (hlength ▸ hi) (hlength ▸ hj)
      obtain ⟨p'', hjoin, hroots''⟩ := ih hpairs hwf' (hlength'.trans hlength)
      refine ⟨p'', ?_, ?_⟩
      · rw [List.filter_cons_of_pos (hrelated.trans htie), joinAll, List.foldlM_cons]
        show (DisjointSets.union p i j).bind _ = _
        rw [hunion]
        exact hjoin
      · rw [if_pos htie, union_rootsBelow hi hj hroots]
        exact hroots''
    · obtain ⟨p', hjoin, hroots⟩ := ih hpairs hwf hlength
      refine ⟨p', ?_, ?_⟩
      · rw [List.filter_cons_of_neg (hrelated ▸ htie)]
        exact hjoin
      · rw [if_neg htie]
        exact hroots

/-- **The ties of the reconciler's model are those of the union-find.** -/
theorem tieRoots_eq (db : AccountRows) (contested : List MatchedEntry) :
    ∃ p, joinAll (DisjointSets.start contested.length) (relatedPairs (sameTie db) contested) =
        some p ∧
      tieRoots db contested = rootsBelow p contested.length := by
  have hpairs : ∀ e ∈ indexPairs contested.length,
      e.1 < contested.length ∧ e.2 < contested.length := by
    intro e he
    obtain ⟨hlt, hj⟩ := mem_indexPairs.mp he
    exact ⟨hlt.trans hj, hj⟩
  obtain ⟨p, hjoin, hroots⟩ := foldl_tieStep db hpairs
    (DisjointSets.wellFormed_start contested.length) List.length_range
  have hstart : rootsBelow (DisjointSets.start contested.length) contested.length =
      List.range contested.length := by
    refine (List.map_congr_left fun y _ => ?_).trans (List.map_id _)
    exact DisjointSets.rootOf_of_isRoot (DisjointSets.isRoot_start _ y)
  rw [hstart] at hroots
  exact ⟨p, hjoin, tieRoots_eq_foldl.trans hroots⟩

end

end FinancialDashboard.Statements
