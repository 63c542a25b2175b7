import FinancialDashboard.Lib.Words

/-!
# What a text spells

A text whose words are joined again, one separator apart, has lost what stood between them.
A window of it *spells* a text if it is the text with a run of separators for each separator.

* `infix_joinWords_iff`: a tidy text stands among the joined words if and only if a window of
  what was cut spells it.
-/

namespace Words

variable {α : Type} {p : α → Bool} {sep a c : α} {l m w t : List α}

/-- The words of a text, one separator apart. -/
def joinWords (p : α → Bool) (sep : α) (l : List α) : List α := [sep].intercalate (wordsOf p l)

/-- The second text is the first, with a run of separators for each separator. -/
inductive Spells (p : α → Bool) (sep : α) : List α → List α → Prop
  | nil : Spells p sep [] []
  | char {m t : List α} (c : α) (hc : p c = false) :
    Spells p sep m t → Spells p sep (c :: m) (c :: t)
  | gap {m t run : List α} (hne : run ≠ []) (hrun : ∀ c ∈ run, p c = true) :
    Spells p sep m t → Spells p sep (sep :: m) (run ++ t)

/-! ### One character more -/

theorem wordsOf_cons_sep (ha : p a = true) : wordsOf p (a :: l) = wordsOf p l := by
  rw [wordsOf, List.splitOnP_cons_eq_if_modifyHead, if_pos ha, List.filter_cons_of_neg (by simp)]
  rfl

theorem wordsOf_append_seps {run : List α} (hrun : ∀ c ∈ run, p c = true) :
    wordsOf p (run ++ l) = wordsOf p l := by
  induction run with
  | nil => rfl
  | cons c run ih =>
    obtain ⟨hc, hrest⟩ := List.forall_mem_cons.mp hrun
    rw [List.cons_append, wordsOf_cons_sep hc, ih hrest]

/-- A character in front of a separator is a word, one in front of a word begins it. -/
theorem wordsOf_cons_cons (ha : p a = false) : wordsOf p (a :: c :: l) =
    if p c then [a] :: wordsOf p (c :: l) else (wordsOf p (c :: l)).modifyHead (a :: ·) := by
  split_ifs with hc
  · rw [wordsOf_cons_sep hc]
    exact wordsOf_append_cons (w := [a]) ⟨List.cons_ne_nil _ _, by simpa using ha⟩ hc
  · obtain ⟨first, more, heq⟩ := List.exists_cons_of_ne_nil (List.splitOnP_ne_nil p l)
    unfold wordsOf
    rw [List.splitOnP_cons_eq_if_modifyHead, if_neg (by simp [ha]),
      List.splitOnP_cons_eq_if_modifyHead, if_neg hc, heq]
    simp

/-- A map that tells what is a separator, and leaves the words alone. -/
theorem wordsOf_map {q : α → Bool} {f : α → α} (hq : ∀ c, q (f c) = p c)
    (hf : ∀ c, p c = false → f c = c) (l : List α) : wordsOf q (l.map f) = wordsOf p l := by
  induction l with
  | nil => rfl
  | cons a l ih =>
    rw [List.map_cons]
    by_cases ha : p a = true
    · rw [wordsOf_cons_sep ha, wordsOf_cons_sep ((hq a).trans ha), ih]
    · rw [Bool.not_eq_true] at ha
      have hqa : q (f a) = false := (hq a).trans ha
      cases l with
      | nil =>
        have hword : ∀ {p : α → Bool} {a : α}, p a = false → wordsOf p [a] = [[a]] :=
          fun ha => wordsOf_word ⟨List.cons_ne_nil _ _, by simpa using ha⟩
        rw [List.map_nil, hword hqa, hword ha, hf a ha]
      | cons c l =>
        rw [List.map_cons] at ih ⊢
        rw [wordsOf_cons_cons hqa, wordsOf_cons_cons ha, ih, hq, hf a ha]

theorem Tidy.map {q : α → Bool} {f : α → α} (h : Tidy p sep l)
    (hf : ∀ c ∈ l, p c = false → q (f c) = false) : Tidy q (f sep) (l.map f) := by
  have hword : ∀ {w : List α}, IsWord p w → (∀ c ∈ w, p c = false → q (f c) = false) →
      IsWord q (w.map f) := by
    intro w hw hwords
    refine ⟨by simpa using hw.1, fun c hc => ?_⟩
    obtain ⟨d, hd, rfl⟩ := List.mem_map.mp hc
    exact hwords d hd (hw.2 d hd)
  induction h with
  | word hw => exact .word (hword hw hf)
  | cons hw hrest ih =>
    obtain ⟨hfirst, hmore⟩ := List.forall_mem_append.mp hf
    rw [List.map_append, List.map_cons]
    exact .cons (hword hw hfirst) (ih fun c hc => hmore c (List.mem_cons_of_mem _ hc))

theorem joinWords_cons_sep (ha : p a = true) : joinWords p sep (a :: l) = joinWords p sep l := by
  rw [joinWords, wordsOf_cons_sep ha, joinWords]

theorem joinWords_singleton (ha : p a = false) : joinWords p sep [a] = [a] := by
  rw [joinWords, wordsOf_word ⟨List.cons_ne_nil _ _, by simpa using ha⟩,
    List.intercalate_singleton]

theorem joinWords_cons_word (ha : p a = false) (hc : p c = false) :
    joinWords p sep (a :: c :: l) = a :: joinWords p sep (c :: l) := by
  have hne : wordsOf p (c :: l) ≠ [] := wordsOf_ne_nil List.mem_cons_self hc
  obtain ⟨first, more, heq⟩ := List.exists_cons_of_ne_nil hne
  rw [joinWords, joinWords, wordsOf_cons_cons ha, if_neg (by simp [hc]), heq, List.modifyHead_cons]
  cases more with
  | nil => rw [List.intercalate_singleton, List.intercalate_singleton]
  | cons next more => rw [List.intercalate_cons_cons, List.intercalate_cons_cons]; rfl

theorem joinWords_eq_nil_iff : joinWords p sep l = [] ↔ wordsOf p l = [] := by
  constructor
  · intro hnil
    cases hwords : wordsOf p l with
    | nil => rfl
    | cons w ws =>
      have hall : ∀ v ∈ w :: ws, IsWord p v := fun v hv => (mem_wordsOf (hwords ▸ hv)).1
      rw [joinWords, hwords] at hnil
      exact absurd hnil (tidy_join (List.cons_ne_nil w ws) hall).ne_nil
  · intro hwords
    rw [joinWords, hwords]
    rfl

/-- In front of a separator. -/
theorem joinWords_cons_gap (ha : p a = false) (hc : p c = true) :
    joinWords p sep (a :: c :: l) =
      a :: if joinWords p sep (c :: l) = [] then [] else sep :: joinWords p sep (c :: l) := by
  rw [joinWords, wordsOf_cons_cons ha, if_pos hc]
  split_ifs with hnil
  · rw [joinWords_eq_nil_iff.mp hnil, List.intercalate_singleton]
  · rw [List.intercalate_cons_of_ne_nil (mt joinWords_eq_nil_iff.mpr hnil)]
    rfl

/-- Behind a character that is no separator there is nothing left, or a gap, or the word goes
on. -/
theorem joinWords_cons_cases (sep : α) (ha : p a = false) (l : List α) :
    joinWords p sep (a :: l) = [a] ∧ joinWords p sep l = [] ∨
      (∃ c ∈ l.head?, p c = true ∧ joinWords p sep (a :: l) = a :: sep :: joinWords p sep l) ∨
      ∃ c ∈ l.head?, p c = false ∧ joinWords p sep (a :: l) = a :: joinWords p sep l := by
  cases l with
  | nil => exact .inl ⟨joinWords_singleton ha, rfl⟩
  | cons c l =>
    by_cases hc : p c = true
    · by_cases hnil : joinWords p sep (c :: l) = []
      · refine .inl ⟨?_, hnil⟩
        rw [joinWords_cons_gap ha hc, if_pos hnil]
      · refine .inr (.inl ⟨c, rfl, hc, ?_⟩)
        rw [joinWords_cons_gap ha hc, if_neg hnil]
    · rw [Bool.not_eq_true] at hc
      exact .inr (.inr ⟨c, rfl, hc, joinWords_cons_word ha hc⟩)

/-- A text goes on as it did with one character less. -/
theorem joinWords_suffix_cons (a : α) (l : List α) :
    joinWords p sep l <:+ joinWords p sep (a :: l) := by
  by_cases ha : p a = true
  · rw [joinWords_cons_sep ha]
  · rw [Bool.not_eq_true] at ha
    rcases joinWords_cons_cases sep ha l with ⟨-, hnil⟩ | ⟨c, -, -, heq⟩ | ⟨c, -, -, heq⟩
    · rw [hnil]
      exact List.nil_suffix
    · rw [heq]
      exact (List.suffix_cons sep _).trans (List.suffix_cons a _)
    · rw [heq]
      exact List.suffix_cons a _

theorem joinWords_suffix_append (before l : List α) :
    joinWords p sep l <:+ joinWords p sep (before ++ l) := by
  induction before with
  | nil => exact List.suffix_rfl
  | cons a before ih => exact ih.trans (joinWords_suffix_cons a (before ++ l))

theorem joinWords_prefix_append (l after : List α) :
    joinWords p sep l <+: joinWords p sep (l ++ after) := by
  induction l with
  | nil => exact List.nil_prefix
  | cons a l ih =>
    by_cases ha : p a = true
    · rw [List.cons_append, joinWords_cons_sep ha, joinWords_cons_sep ha]
      exact ih
    · rw [Bool.not_eq_true] at ha
      cases l with
      | nil =>
        rw [joinWords_singleton ha]
        cases after with
        | nil => exact (joinWords_singleton ha).symm ▸ List.prefix_rfl
        | cons c after =>
          by_cases hc : p c = true
          · rw [List.cons_append, List.nil_append, joinWords_cons_gap ha hc]
            exact List.cons_prefix_cons.mpr ⟨rfl, List.nil_prefix⟩
          · rw [List.cons_append, List.nil_append, joinWords_cons_word ha (by simpa using hc)]
            exact List.cons_prefix_cons.mpr ⟨rfl, List.nil_prefix⟩
      | cons c l =>
        rw [List.cons_append] at ih
        by_cases hc : p c = true
        · rw [List.cons_append, List.cons_append, joinWords_cons_gap ha hc,
            joinWords_cons_gap ha hc]
          refine List.cons_prefix_cons.mpr ⟨rfl, ?_⟩
          by_cases hnil : joinWords p sep (c :: l) = []
          · rw [if_pos hnil]
            exact List.nil_prefix
          · have hmore : joinWords p sep (c :: (l ++ after)) ≠ [] := fun hall =>
              hnil (List.prefix_nil.mp (hall ▸ ih))
            rw [if_neg hnil, if_neg hmore]
            exact List.cons_prefix_cons.mpr ⟨rfl, ih⟩
        · rw [List.cons_append, List.cons_append, joinWords_cons_word ha (by simpa using hc),
            joinWords_cons_word ha (by simpa using hc)]
          exact List.cons_prefix_cons.mpr ⟨rfl, ih⟩

/-- **What a window is cut to stands in what the text is cut to.** -/
theorem joinWords_infix (h : w <:+: l) : joinWords p sep w <:+: joinWords p sep l := by
  obtain ⟨before, after, rfl⟩ := h
  rw [List.append_assoc]
  exact (joinWords_prefix_append w after).isInfix.trans
    (joinWords_suffix_append before (w ++ after)).isInfix

/-! ### Windows -/

/-- A window that begins what is left of a text: behind separators, if the text begins with one,
and else at once. -/
theorem exists_spells_of_prefix (h : m <+: joinWords p sep l) :
    ∃ lead window, lead ++ window <+: l ∧ (∀ c ∈ lead, p c = true) ∧ Spells p sep m window ∧
      ∀ c ∈ l.head?, (p c = true → lead ≠ []) ∧ (p c = false → lead = []) := by
  induction l generalizing m with
  | nil =>
    obtain rfl := List.prefix_nil.mp h
    exact ⟨[], [], List.nil_prefix, fun _ hc => absurd hc List.not_mem_nil, .nil,
      fun c hc => by cases hc⟩
  | cons a l ih =>
    by_cases ha : p a = true
    · rw [joinWords_cons_sep ha] at h
      obtain ⟨lead, window, hwindow, hlead, hspells, -⟩ := ih h
      refine ⟨a :: lead, window, List.cons_prefix_cons.mpr ⟨rfl, hwindow⟩,
        List.forall_mem_cons.mpr ⟨ha, hlead⟩, hspells, fun c hc => ⟨fun _ => List.cons_ne_nil _ _,
        fun hword => ?_⟩⟩
      obtain rfl : a = c := by simpa using hc
      exact absurd (ha.symm.trans hword) (by decide)
    · rw [Bool.not_eq_true] at ha
      -- a word goes on, so that nothing is skipped
      suffices hwindow : ∃ window, window <+: a :: l ∧ Spells p sep m window by
        obtain ⟨window, hprefix, hspells⟩ := hwindow
        refine ⟨[], window, hprefix, fun _ hc => absurd hc List.not_mem_nil, hspells,
          fun c hc => ⟨fun hsep => ?_, fun _ => rfl⟩⟩
        obtain rfl : a = c := by simpa using hc
        exact absurd (ha.symm.trans hsep) (by decide)
      have hone : ∃ window, window <+: a :: l ∧ Spells p sep [a] window :=
        ⟨[a], List.cons_prefix_cons.mpr ⟨rfl, List.nil_prefix⟩, .char a ha .nil⟩
      cases m with
      | nil => exact ⟨[], List.nil_prefix, .nil⟩
      | cons b m =>
        rcases joinWords_cons_cases sep ha l with
          ⟨heq, -⟩ | ⟨c, hhead, hc, heq⟩ | ⟨c, hhead, hc, heq⟩
        all_goals
          rw [heq] at h
          obtain ⟨rfl, hrest⟩ := List.cons_prefix_cons.mp h
        · obtain rfl := List.prefix_nil.mp hrest
          exact hone
        · cases m with
          | nil => exact hone
          | cons d m =>
            obtain ⟨rfl, hlater⟩ := List.cons_prefix_cons.mp hrest
            obtain ⟨lead, window, hwindow, hlead, hspells, hfirst⟩ := ih hlater
            exact ⟨_, List.cons_prefix_cons.mpr ⟨rfl, hwindow⟩,
              .char b ha (.gap ((hfirst c hhead).1 hc) hlead hspells)⟩
        · obtain ⟨lead, window, hwindow, hlead, hspells, hfirst⟩ := ih hrest
          rw [(hfirst c hhead).2 hc, List.nil_append] at hwindow
          exact ⟨_, List.cons_prefix_cons.mpr ⟨rfl, hwindow⟩, .char b ha hspells⟩

theorem exists_spells_of_infix (h : m <:+: joinWords p sep l) :
    ∃ window, window <:+: l ∧ Spells p sep m window := by
  have hfirst : ∀ {m : List α} {l : List α}, m <+: joinWords p sep l →
      ∃ window, window <:+: l ∧ Spells p sep m window := by
    intro m l hprefix
    obtain ⟨lead, window, hwindow, -, hspells, -⟩ := exists_spells_of_prefix hprefix
    exact ⟨window, (List.suffix_append lead window).isInfix.trans hwindow.isInfix, hspells⟩
  induction l with
  | nil => exact hfirst (List.infix_nil.mp h ▸ List.nil_prefix)
  | cons a l ih =>
    have hlater : m <:+: joinWords p sep l →
        ∃ window, window <:+: a :: l ∧ Spells p sep m window := by
      intro hinfix
      obtain ⟨window, hwindow, hspells⟩ := ih hinfix
      exact ⟨window, hwindow.trans (List.suffix_cons a l).isInfix, hspells⟩
    by_cases ha : p a = true
    · rw [joinWords_cons_sep ha] at h
      exact hlater h
    · rw [Bool.not_eq_true] at ha
      rcases joinWords_cons_cases sep ha l with
        ⟨heq, hnil⟩ | ⟨c, hhead, hc, heq⟩ | ⟨c, -, -, heq⟩
      all_goals
        have hfirst' : m <+: joinWords p sep (a :: l) → _ := hfirst
        rw [heq] at h hfirst'
        rcases List.infix_cons_iff.mp h with hprefix | hrest
        · exact hfirst' hprefix
      · exact hlater (hnil ▸ hrest)
      · rcases List.infix_cons_iff.mp hrest with hprefix | hinfix
        · -- it begins with the gap
          cases m with
          | nil => exact ⟨[], List.nil_infix, .nil⟩
          | cons d m =>
            obtain ⟨rfl, hprefix⟩ := List.cons_prefix_cons.mp hprefix
            obtain ⟨lead, window, hwindow, hlead, hspells, hlead'⟩ :=
              exists_spells_of_prefix hprefix
            exact ⟨_, hwindow.isInfix.trans (List.suffix_cons a l).isInfix,
              .gap ((hlead' c hhead).1 hc) hlead hspells⟩
        · exact hlater hinfix
      · exact hlater hrest

theorem Spells.of_append (hw : ∀ c ∈ w, p c = false) (hsep : p sep = true)
    (h : Spells p sep (w ++ m) l) : ∃ t, l = w ++ t ∧ Spells p sep m t := by
  induction w generalizing l with
  | nil => exact ⟨l, rfl, h⟩
  | cons c w ih =>
    obtain ⟨hc, hw⟩ := List.forall_mem_cons.mp hw
    rw [List.cons_append] at h
    cases h with
    | char _ _ h =>
      obtain ⟨t, rfl, hspells⟩ := ih hw h
      exact ⟨t, rfl, hspells⟩
    | gap => exact absurd (hsep.symm.trans hc) (by decide)

/-- A word is spelled by itself only. -/
theorem Spells.eq_of_word (hw : ∀ c ∈ w, p c = false) (hsep : p sep = true)
    (h : Spells p sep w l) : l = w := by
  obtain ⟨t, rfl, ht⟩ := Spells.of_append (m := []) hw hsep (by rwa [List.append_nil])
  cases ht
  exact List.append_nil w

/-- **A window that spells a tidy text is cut to it.** -/
theorem Spells.joinWords_eq (hsep : p sep = true) (hm : Tidy p sep m) (h : Spells p sep m l) :
    joinWords p sep l = m := by
  induction hm generalizing l with
  | @word w hw =>
    rw [h.eq_of_word hw.2 hsep, joinWords, wordsOf_word hw, List.intercalate_singleton]
  | @cons w rest hw hrest ih =>
    obtain ⟨t, rfl, ht⟩ := Spells.of_append hw.2 hsep h
    cases ht with
    | char _ hc _ => exact absurd (hsep.symm.trans hc) (by decide)
    | @gap _ t run hne hrun hspells =>
      obtain ⟨c, run, rfl⟩ := List.exists_cons_of_ne_nil hne
      obtain ⟨hc, hrun⟩ := List.forall_mem_cons.mp hrun
      have hjoin : joinWords p sep t = rest := ih hspells
      have hwords : wordsOf p t ≠ [] := fun hnil =>
        hrest.ne_nil (hjoin ▸ joinWords_eq_nil_iff.mpr hnil)
      rw [joinWords, List.cons_append, wordsOf_append_cons hw hc, wordsOf_append_seps hrun,
        List.intercalate_cons_of_ne_nil hwords]
      show w ++ [sep] ++ joinWords p sep t = _
      rw [hjoin, List.append_assoc]
      rfl

/-- **A tidy text stands among the joined words if and only if a window spells it.** -/
theorem infix_joinWords_iff (hsep : p sep = true) (hm : Tidy p sep m) :
    m <:+: joinWords p sep l ↔ ∃ window, window <:+: l ∧ Spells p sep m window := by
  constructor
  · exact exists_spells_of_infix
  · rintro ⟨window, hwindow, hspells⟩
    exact hspells.joinWords_eq hsep hm ▸ joinWords_infix hwindow

end Words
