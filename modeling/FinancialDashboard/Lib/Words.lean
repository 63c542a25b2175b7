import Mathlib.Data.List.Infix

/-!
# The words of a text

A text is cut at its separators and what is empty is dropped; the rest are its words,
`wordsOf`.  A text is *tidy* when its words stand one separator apart, with none before the
first and none after the last.

* `mem_wordsOf`: a word is not empty and has no separator in it.
* `flatten_wordsOf`: the words together are the text without its separators.
* `Tidy.join_wordsOf`: a tidy text is its words joined; `tidy_join`: and any words joined are
  tidy.
* `Tidy.glue`: two tidy texts stay one with a character between that separates nothing.
-/

namespace Words

variable {α : Type} {p : α → Bool} {sep : α} {l w rest : List α}

/-- What lies between the separators, the empty pieces dropped. -/
def wordsOf (p : α → Bool) (l : List α) : List (List α) := (l.splitOnP p).filter (· ≠ [])

/-- Not empty and without a separator. -/
def IsWord (p : α → Bool) (w : List α) : Prop := w ≠ [] ∧ ∀ c ∈ w, p c = false

/-! ### Cutting -/

theorem wordsOf_append_cons (hw : IsWord p w) (hsep : p sep = true) :
    wordsOf p (w ++ sep :: rest) = w :: wordsOf p rest := by
  rw [wordsOf, List.splitOnP_append_cons_of_forall_mem hw.2 sep hsep,
    List.filter_cons_of_pos (by simpa using hw.1)]
  rfl

theorem wordsOf_word (hw : IsWord p w) : wordsOf p w = [w] := by
  rw [wordsOf, List.splitOnP_eq_singleton hw.2, List.filter_cons_of_pos (by simpa using hw.1)]
  rfl

/-- The pieces of a text have no separator in them, and are made of it. -/
theorem mem_splitOnP {piece : List α} (h : piece ∈ l.splitOnP p) :
    ∀ c ∈ piece, p c = false ∧ c ∈ l := by
  induction l generalizing piece with
  | nil =>
    rw [List.splitOnP_nil, List.mem_singleton] at h
    simp [h]
  | cons d l ih =>
    rw [List.splitOnP_cons_eq_if_modifyHead] at h
    intro c hc
    split_ifs at h with hd
    · rcases List.mem_cons.mp h with rfl | h
      · cases hc
      · exact ⟨(ih h c hc).1, List.mem_cons_of_mem _ (ih h c hc).2⟩
    · obtain ⟨first, more, heq⟩ := List.exists_cons_of_ne_nil (List.splitOnP_ne_nil p l)
      rw [heq, List.modifyHead_cons, List.mem_cons] at h
      rcases h with rfl | h
      · rcases List.mem_cons.mp hc with rfl | hc
        · exact ⟨by simpa using hd, List.mem_cons_self⟩
        · have hfirst := ih (heq ▸ List.mem_cons_self) c hc
          exact ⟨hfirst.1, List.mem_cons_of_mem _ hfirst.2⟩
      · have hmore := ih (heq ▸ List.mem_cons_of_mem _ h) c hc
        exact ⟨hmore.1, List.mem_cons_of_mem _ hmore.2⟩

theorem mem_wordsOf (h : w ∈ wordsOf p l) : IsWord p w ∧ ∀ c ∈ w, c ∈ l := by
  rw [wordsOf, List.mem_filter] at h
  have hpiece := mem_splitOnP h.1
  exact ⟨⟨by simpa using h.2, fun c hc => (hpiece c hc).1⟩, fun c hc => (hpiece c hc).2⟩

/-- **The words together are the text without its separators.** -/
theorem flatten_wordsOf (p : α → Bool) (l : List α) :
    (wordsOf p l).flatten = l.filter (!p ·) := by
  rw [wordsOf, List.flatten_filter_ne_nil]
  induction l with
  | nil => rfl
  | cons c l ih =>
    rw [List.splitOnP_cons_eq_if_modifyHead]
    obtain ⟨first, more, heq⟩ := List.exists_cons_of_ne_nil (List.splitOnP_ne_nil p l)
    cases hc : p c with
    | true => simp [hc, ih]
    | false =>
      rw [heq, List.flatten_cons] at ih
      simp [hc, heq, ih]

theorem wordsOf_ne_nil {c : α} (hc : c ∈ l) (hp : p c = false) : wordsOf p l ≠ [] := by
  intro hnil
  have hflat := flatten_wordsOf p l
  rw [hnil, List.flatten_nil] at hflat
  have hmem : c ∈ l.filter (!p ·) := List.mem_filter.mpr ⟨hc, by simp [hp]⟩
  rw [← hflat] at hmem
  cases hmem

/-- The characters of joined words. -/
theorem mem_join {ws : List (List α)} {c : α} (h : c ∈ [sep].intercalate ws) :
    c = sep ∨ ∃ w ∈ ws, c ∈ w := by
  induction ws with
  | nil => cases h
  | cons w ws ih =>
    cases ws with
    | nil =>
      rw [List.intercalate_singleton] at h
      exact .inr ⟨w, List.mem_cons_self, h⟩
    | cons v vs =>
      rw [List.intercalate_cons_cons, List.mem_append, List.mem_append, List.mem_singleton] at h
      rcases h with (hw | rfl) | hrest
      · exact .inr ⟨w, List.mem_cons_self, hw⟩
      · exact .inl rfl
      · rcases ih hrest with hsep | ⟨u, hu, hc⟩
        · exact .inl hsep
        · exact .inr ⟨u, List.mem_cons_of_mem w hu, hc⟩

/-! ### Tidy texts -/

inductive Tidy (p : α → Bool) (sep : α) : List α → Prop
  | word {w : List α} (hw : IsWord p w) : Tidy p sep w
  | cons {w rest : List α} (hw : IsWord p w) (hrest : Tidy p sep rest) :
    Tidy p sep (w ++ sep :: rest)

theorem Tidy.ne_nil (h : Tidy p sep l) : l ≠ [] := by
  cases h with
  | word hw => exact hw.1
  | cons hw _ => simp [hw.1]

theorem Tidy.head (h : Tidy p sep l) : ∀ c ∈ l.head?, p c = false := by
  have hword : ∀ {w : List α}, IsWord p w → ∀ more, ∀ c ∈ (w ++ more).head?, p c = false := by
    intro w hw more c hc
    obtain ⟨d, tail, rfl⟩ := List.exists_cons_of_ne_nil hw.1
    obtain rfl : d = c := by simpa using hc
    exact hw.2 d List.mem_cons_self
  cases h with
  | @word w hw => simpa using hword hw []
  | cons hw _ => exact hword hw _

/-- **A tidy text is its words joined.** -/
theorem Tidy.join_wordsOf (hsep : p sep = true) (h : Tidy p sep l) :
    [sep].intercalate (wordsOf p l) = l := by
  induction h with
  | word hw => rw [wordsOf_word hw, List.intercalate_singleton]
  | cons hw hrest ih =>
    have hne : wordsOf p _ ≠ [] := fun hnil => hrest.ne_nil (by rw [← ih, hnil]; rfl)
    rw [wordsOf_append_cons hw hsep, List.intercalate_cons_of_ne_nil hne, ih]
    simp

theorem tidy_join {ws : List (List α)} (hne : ws ≠ []) (h : ∀ w ∈ ws, IsWord p w) :
    Tidy p sep ([sep].intercalate ws) := by
  induction ws with
  | nil => exact absurd rfl hne
  | cons w ws ih =>
    have hw := h w List.mem_cons_self
    cases ws with
    | nil =>
      rw [List.intercalate_singleton]
      exact .word hw
    | cons v vs =>
      have hrest := ih (List.cons_ne_nil v vs) fun u hu => h u (List.mem_cons_of_mem _ hu)
      rw [List.intercalate_cons_cons, List.append_assoc]
      exact .cons hw hrest

/-- A tidy text stays one behind a word and a character that separates nothing. -/
theorem Tidy.glue_word {c : α} (hw : IsWord p w) (hc : p c = false) (h : Tidy p sep l) :
    Tidy p sep (w ++ c :: l) := by
  have hglued : ∀ {v : List α}, IsWord p v → IsWord p (w ++ c :: v) := by
    intro v hv
    refine ⟨by simp, fun d hd => ?_⟩
    rcases List.mem_append.mp hd with hd | hd
    · exact hw.2 d hd
    · rcases List.mem_cons.mp hd with rfl | hd
      · exact hc
      · exact hv.2 d hd
  cases h with
  | word hv => exact .word (hglued hv)
  | cons hv hrest =>
    rw [← List.cons_append, ← List.append_assoc]
    exact .cons (hglued hv) hrest

/-- **Two tidy texts make one, with a character between that separates nothing.** -/
theorem Tidy.glue {c : α} {l' : List α} (hc : p c = false) (h : Tidy p sep l)
    (h' : Tidy p sep l') : Tidy p sep (l ++ c :: l') := by
  induction h with
  | word hw => exact h'.glue_word hw hc
  | cons hw _ ih =>
    rw [List.append_assoc, List.cons_append]
    exact .cons hw ih

end Words
