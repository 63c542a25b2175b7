import Mathlib.Data.List.MinMax
import Mathlib.Data.List.Nodup
import Mathlib.Data.List.Pairwise
import Mathlib.Order.Nat

/-!
# Tables with unique indexes

A `Schema` says where a row has its primary key and which two rows the unique indexes
do not let be there together; a `Table` is a list of rows that keeps to it.

A row is inserted under the next key, unless it clashes with one that is there.  An
upsert writes to the row it clashes with instead.

* `mem_insert`, `mem_delete`, `mem_update`: what each operation leaves.
* `exists_insert`: an insertion takes place where nothing clashes.
* `upsert_spec`: an upsert changes the row it clashes with, or adds one.

A session that reads a row and commits it later writes the columns it has changed, and no
others: `writeDirty`.

* `writeDirty_eq_new_iff`: when the column has the session's value after the commit.
-/

structure Schema (α : Type*) where
  id : α → ℕ
  Clashes : α → α → Prop
  decidable : DecidableRel Clashes

instance {α : Type*} (schema : Schema α) : DecidableRel schema.Clashes := schema.decidable

/-- Rows with different primary keys, none of which clash. -/
structure Table {α : Type*} (schema : Schema α) where
  rows : List α
  ids : (rows.map schema.id).Nodup
  unique : rows.Pairwise fun a b => ¬ schema.Clashes a b

namespace Table

variable {α : Type*} {schema : Schema α}

/-- No rows. -/
def empty : Table schema := ⟨[], .nil, .nil⟩

instance : Membership α (Table schema) := ⟨fun t a => a ∈ t.rows⟩

/-- The primary key of the next row: one more than the highest there is. -/
def nextId (t : Table schema) : ℕ := (t.rows.map schema.id).foldr max 0 + 1

theorem lt_nextId {t : Table schema} {a : α} (h : a ∈ t) : schema.id a < t.nextId :=
  Nat.lt_succ_of_le (List.le_max_of_le (List.mem_map_of_mem h) (le_refl _))

/-- A way to write a row under a primary key. -/
structure NewRow (schema : Schema α) where
  make : ℕ → α
  id_make (n : ℕ) : schema.id (make n) = n

/-- The row that an insertion would write. -/
def next (t : Table schema) (row : NewRow schema) : α := row.make t.nextId

/-- `INSERT`; `none` if a unique index forbids it. -/
def insert (t : Table schema) (row : NewRow schema) : Option (Table schema) :=
  if h : ∀ a ∈ t.rows, ¬ schema.Clashes a (t.next row) then
    some
      { rows := t.rows ++ [t.next row]
        ids := by
          rw [List.map_append]
          refine List.Nodup.append t.ids (List.nodup_singleton _) fun n hn hn' => ?_
          obtain ⟨a, ha, rfl⟩ := List.mem_map.mp hn
          rw [List.map_singleton, List.mem_singleton, next, row.id_make] at hn'
          exact (lt_nextId ha).ne hn'
        unique := List.pairwise_append.mpr ⟨t.unique, List.pairwise_singleton _ _,
          fun a ha b hb => List.mem_singleton.mp hb ▸ h a ha⟩ }
  else none

/-- `DELETE ... WHERE p`. -/
def delete (t : Table schema) (p : α → Bool) : Table schema where
  rows := t.rows.filter fun a => !p a
  ids := t.ids.sublist (List.filter_sublist.map _)
  unique := t.unique.sublist List.filter_sublist

/-- A change of a row that leaves its keys. -/
structure Change (schema : Schema α) where
  set : α → α
  id_set (a : α) : schema.id (set a) = schema.id a
  left (a b : α) : schema.Clashes (set a) b ↔ schema.Clashes a b
  right (a b : α) : schema.Clashes a (set b) ↔ schema.Clashes a b

/-- `UPDATE ... SET ... WHERE p`. -/
def update (t : Table schema) (p : α → Bool) (change : Change schema) : Table schema where
  rows := t.rows.map fun a => if p a then change.set a else a
  ids := by
    rw [List.map_map]
    refine (congrArg List.Nodup (List.map_congr_left fun a _ => ?_)).mpr t.ids
    show schema.id (if p a then change.set a else a) = schema.id a
    split_ifs
    · exact change.id_set a
    · rfl
  unique := by
    refine List.Pairwise.map _ (fun a b h => ?_) t.unique
    show ¬ schema.Clashes (if p a then change.set a else a) (if p b then change.set b else b)
    split_ifs
    · rwa [change.left, change.right]
    · rwa [change.left]
    · rwa [change.right]
    · exact h

/-- A row of the table is written anew; `none` if a unique index forbids it. -/
def replace (t : Table schema) (row : α) : Option (Table schema) :=
  let write a := if schema.id a = schema.id row then row else a
  if h : (t.rows.map write).Pairwise fun a b => ¬ schema.Clashes a b then
    some
      { rows := t.rows.map write
        ids := by
          rw [List.map_map]
          refine (congrArg List.Nodup (List.map_congr_left fun a _ => ?_)).mpr t.ids
          show schema.id (if schema.id a = schema.id row then row else a) = schema.id a
          split_ifs with hid
          · exact hid.symm
          · rfl
        unique := h }
  else none

/-- `INSERT ... ON CONFLICT DO UPDATE`, on the indexes `Clashes` is about. -/
def upsert (t : Table schema) (row : NewRow schema) (change : Change schema) : Table schema :=
  match t.insert row with
  | some t' => t'
  | none => t.update (fun a => schema.Clashes a (t.next row)) change

variable {t t' : Table schema} {row : NewRow schema} {change : Change schema} {p : α → Bool}
  {a : α}

theorem insert_eq_some (h : t.insert row = some t') :
    t'.rows = t.rows ++ [t.next row] ∧ ∀ a ∈ t, ¬ schema.Clashes a (t.next row) := by
  unfold insert at h
  split_ifs at h with hclash
  exact ⟨by rw [← Option.some.inj h], hclash⟩

theorem mem_insert (h : t.insert row = some t') : a ∈ t' ↔ a ∈ t ∨ a = t.next row := by
  show a ∈ t'.rows ↔ _
  rw [(insert_eq_some h).1, List.mem_append, List.mem_singleton]
  exact Iff.rfl

theorem exists_insert (h : ∀ a ∈ t, ¬ schema.Clashes a (t.next row)) :
    ∃ t', t.insert row = some t' :=
  ⟨_, dif_pos h⟩

theorem mem_delete : a ∈ t.delete p ↔ a ∈ t ∧ p a = false := by
  show a ∈ t.rows.filter _ ↔ _
  rw [List.mem_filter, Bool.not_eq_true']
  exact Iff.rfl

theorem mem_update : a ∈ t.update p change ↔
    ∃ b ∈ t, (p b = true ∧ a = change.set b) ∨ (p b = false ∧ a = b) := by
  show a ∈ t.rows.map _ ↔ _
  rw [List.mem_map]
  refine exists_congr fun b => and_congr_right fun _ => ?_
  cases hp : p b
  · simp [eq_comm]
  · simp [eq_comm]

/-- Two rows of a table with one primary key are one row. -/
theorem eq_of_id_eq {b : α} (ha : a ∈ t) (hb : b ∈ t) (h : schema.id a = schema.id b) : a = b :=
  List.inj_on_of_nodup_map t.ids ha hb h

/-- Two rows of a table that clash are one row. -/
theorem eq_of_clashes {b : α} (hsymm : ∀ a b, schema.Clashes a b → schema.Clashes b a)
    (ha : a ∈ t) (hb : b ∈ t) (h : schema.Clashes a b) : a = b := by
  by_contra hne
  have : Std.Symm fun a b => ¬ schema.Clashes a b :=
    ⟨fun a b hnot hba => hnot (hsymm b a hba)⟩
  exact t.unique.forall ha hb hne h

theorem filter_eq_singleton {q : α → Bool} (ha : a ∈ t) (hq : q a = true)
    (h : ∀ b ∈ t, q b = true → b = a) : t.rows.filter q = [a] := by
  have hnodup : (t.rows.filter q).Nodup := (List.Nodup.of_map _ t.ids).filter _
  refine List.perm_singleton.mp ((List.perm_ext_iff_of_nodup hnodup
    (List.nodup_singleton a)).mpr fun b => ?_)
  rw [List.mem_filter, List.mem_singleton]
  exact ⟨fun hb => h b hb.1 hb.2, fun hb => hb ▸ ⟨ha, hq⟩⟩

/-- What an upsert leaves: rows that were there, changed or not, and what it inserts. -/
theorem upsert_spec (h : a ∈ t.upsert row change) :
    a ∈ t ∨ a = t.next row ∨ ∃ b ∈ t, schema.Clashes b (t.next row) ∧ a = change.set b := by
  unfold upsert at h
  split at h
  · rename_i t' ht'
    exact ((mem_insert ht').mp h).imp_right .inl
  · obtain ⟨b, hb, ⟨hp, ha⟩ | ⟨-, ha⟩⟩ := mem_update.mp h
    · exact .inr (.inr ⟨b, hb, of_decide_eq_true hp, ha⟩)
    · exact .inl (ha ▸ hb)

/-- What an upsert does not clash with stays. -/
theorem mem_upsert_of_not_clashes (ha : a ∈ t) (h : ¬ schema.Clashes a (t.next row)) :
    a ∈ t.upsert row change := by
  unfold upsert
  split
  · rename_i t' ht'
    exact (mem_insert ht').mpr (.inl ha)
  · exact mem_update.mpr ⟨a, ha, .inr ⟨decide_eq_false h, rfl⟩⟩

end Table

/-! ### The columns that a session has changed -/

section

variable {α : Type*} [DecidableEq α] {read new current : α}

/-- What a commit leaves of a column that was read and then set: a value that is the one
that was read is not written. -/
def writeDirty (read new current : α) : α := if new = read then current else new

/-- A column that is as it was read takes the value it is set to. -/
@[simp] theorem writeDirty_fresh : writeDirty read new read = new := by
  unfold writeDirty
  split_ifs with h
  · exact h.symm
  · rfl

/-- A column that is set to what was read stays as it is. -/
@[simp] theorem writeDirty_unchanged : writeDirty read read current = current := if_pos rfl

theorem writeDirty_eq_new_iff :
    writeDirty read new current = new ↔ (read = new → current = new) := by
  unfold writeDirty
  split_ifs with h
  · exact ⟨fun hc _ => hc, fun hc => hc h.symm⟩
  · exact ⟨fun _ hr => absurd hr.symm h, fun _ => rfl⟩

end
