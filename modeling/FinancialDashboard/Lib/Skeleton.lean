import Mathlib.Data.List.Basic

/-!
# The skeleton of a text

A text is cut into lines, and `skeleton` cuts each line down to what tells its structure.
Two texts with the same skeleton differ in what is cut away alone.

* `skeleton_join`: pieces with the same skeletons make texts with the same skeleton, whatever
  the lines of a piece are.
* `map_bind_congr`, `map_mapM_congr`: two runs that may fail, seen through a function alike.
* `eraseLiterals` empties the string literals of a line.  `eraseLiterals_quote`: a quoted text
  leaves nothing but its quotes, whatever quotes and backslashes it has.
-/

namespace Skeleton

/-! ### Lines -/

section

variable {α β : Type*} [DecidableEq α] {sep : α} {cut : List α → List β}

/-- **The lines of joined pieces are the lines of the pieces.** -/
theorem splitOn_join {pieces : List (List α)} (h : pieces ≠ []) :
    ([sep].intercalate pieces).splitOn sep = pieces.flatMap (·.splitOn sep) := by
  induction pieces with
  | nil => exact absurd rfl h
  | cons piece rest ih =>
    cases rest with
    | nil => rw [List.intercalate_singleton, List.flatMap_singleton]
    | cons next more =>
      rw [List.intercalate_cons_cons, List.append_assoc, List.singleton_append,
        List.splitOn_append_cons_self, ih (List.cons_ne_nil _ _)]
      rfl

/-- The lines, each cut down. -/
def skeleton (sep : α) (cut : List α → List β) (text : List α) : List (List β) :=
  (text.splitOn sep).map cut

theorem skeleton_line {line : List α} (h : sep ∉ line) : skeleton sep cut line = [cut line] := by
  rw [skeleton, List.splitOn_eq_singleton h]
  rfl

/-- Pieces that look alike make texts that do. -/
theorem skeleton_join {pieces pieces' : List (List α)}
    (h : pieces.map (skeleton sep cut) = pieces'.map (skeleton sep cut)) :
    skeleton sep cut ([sep].intercalate pieces) = skeleton sep cut ([sep].intercalate pieces') := by
  cases pieces with
  | nil => rw [List.map_eq_nil_iff.mp h.symm]
  | cons piece rest =>
    have hne : pieces' ≠ [] := by
      rintro rfl
      cases h
    have hlines : ∀ {l : List (List α)}, l ≠ [] →
        skeleton sep cut ([sep].intercalate l) = (l.map (skeleton sep cut)).flatten := by
      intro l hl
      rw [skeleton, splitOn_join hl, List.map_flatMap]
      rfl
    rw [hlines (List.cons_ne_nil _ _), hlines hne, h]

/-- A line that is ended. -/
theorem skeleton_concat (text : List α) :
    skeleton sep cut (text ++ [sep]) = skeleton sep cut text ++ [cut []] := by
  rw [skeleton, List.splitOn_append_cons_self, List.splitOn_nil, List.map_append]
  rfl

/-- Only the empty text looks empty, if no line is cut down to nothing. -/
theorem eq_nil_of_skeleton (hcut : ∀ line, cut line = [] → line = []) {text : List α}
    (h : skeleton sep cut text = [[]]) : text = [] := by
  unfold skeleton at h
  obtain ⟨line, hline, hnil⟩ := List.map_eq_singleton_iff.mp h
  rw [hcut line hnil] at hline
  have hjoin : [sep].intercalate (text.splitOn sep) = text := List.intercalate_splitOn sep
  rw [← hjoin, hline]
  rfl

end

/-- What is taken up to a mark does not depend on what follows it. -/
theorem takeWhile_append_cons {α : Type*} {p : α → Bool} {a : α} (ha : p a = false)
    (before rest : List α) : (before ++ a :: rest).takeWhile p = before.takeWhile p := by
  induction before with
  | nil => exact List.takeWhile_cons_of_neg (by simp [ha])
  | cons b before ih =>
    rw [List.cons_append, List.takeWhile_cons, List.takeWhile_cons, ih]

/-! ### Runs -/

section

universe u

variable {ω α β : Type*} {γ δ κ μ : Type u}

/-- Two runs whose first halves look alike, and whose second halves do on what looks alike. -/
theorem map_bind_congr {x x' : Except ω γ} {f f' : γ → Except ω δ} {k : γ → κ} {m : δ → μ}
    (hx : x.map k = x'.map k) (h : ∀ a a', k a = k a' → (f a).map m = (f' a').map m) :
    (x >>= f).map m = (x' >>= f').map m := by
  cases x with
  | error e =>
    cases x' with
    | error e' => exact congrArg Except.error (Except.error.inj hx)
    | ok a' => cases hx
  | ok a =>
    cases x' with
    | error e' => cases hx
    | ok a' => exact h a a' (Except.ok.inj hx)

/-- A pass over items and over what they are replaced by. -/
theorem map_mapM_congr {f : α → Except ω γ} {f' : β → Except ω γ} {k : γ → κ} {b : α → β}
    {l : List α} (h : ∀ x ∈ l, (f x).map k = (f' (b x)).map k) :
    (l.mapM f).map (List.map k) = ((l.map b).mapM f').map (List.map k) := by
  induction l with
  | nil => rfl
  | cons x rest ih =>
    rw [List.map_cons, List.mapM_cons, List.mapM_cons]
    refine map_bind_congr (h x List.mem_cons_self) fun a a' ha => ?_
    refine map_bind_congr (ih fun y hy => h y (List.mem_cons_of_mem _ hy)) fun as as' has => ?_
    show Except.ok ((a :: as).map k) = Except.ok ((a' :: as').map k)
    rw [List.map_cons, List.map_cons, ha, has]

end

/-! ### String literals -/

/-- A backslash before each backslash and each quote. -/
def escape (text : List Char) : List Char :=
  text.flatMap fun c => if c = '\\' || c = '"' then ['\\', c] else [c]

/-- What is left when the literals are emptied; the flag tells whether one is open. -/
def eraseLiterals : Bool → List Char → List Char
  | _, [] => []
  | false, c :: rest => c :: eraseLiterals (c = '"') rest
  | true, '\\' :: _ :: rest => eraseLiterals true rest
  | true, c :: rest => if c = '"' then '"' :: eraseLiterals false rest else eraseLiterals true rest

theorem eraseLiterals_append {before : List Char} (h : '"' ∉ before) (rest : List Char) :
    eraseLiterals false (before ++ rest) = before ++ eraseLiterals false rest := by
  induction before with
  | nil => rfl
  | cons c before ih =>
    have hc : decide (c = '"') = false :=
      decide_eq_false fun heq => h (heq ▸ List.mem_cons_self)
    rw [List.cons_append, eraseLiterals, hc, ih fun hmem => h (List.mem_cons_of_mem c hmem)]
    rfl

/-- An open literal ends at the quote that is not escaped. -/
theorem eraseLiterals_escape (text rest : List Char) :
    eraseLiterals true (escape text ++ '"' :: rest) = '"' :: eraseLiterals false rest := by
  induction text with
  | nil => rfl
  | cons c text ih =>
    rw [escape, List.flatMap_cons]
    split_ifs with hc
    · exact ih
    · simp only [Bool.or_eq_true, decide_eq_true_eq, not_or] at hc
      rw [List.singleton_append, List.cons_append, eraseLiterals, if_neg hc.2]
      · exact ih
      · rintro _ _ rfl
        exact absurd rfl hc.1

/-- **Of a quoted text the quotes are left.** -/
theorem eraseLiterals_quote (text rest : List Char) :
    eraseLiterals false ('"' :: (escape text ++ '"' :: rest)) =
      '"' :: '"' :: eraseLiterals false rest := by
  rw [eraseLiterals]
  exact congrArg _ (eraseLiterals_escape text rest)

theorem eq_nil_of_eraseLiterals {line : List Char} (h : eraseLiterals false line = []) :
    line = [] := by
  cases line with
  | nil => rfl
  | cons c rest => cases h

end Skeleton
