import FinancialDashboard.Lib.PyText
import Mathlib.Data.List.DropRight

/-!
# Stripping and changing the case again

A text that was stripped and brought to one case stays as it is when that is done again.
Stripping needs nothing for it.  The case maps have to be maps onto the characters that they
leave alone, and may not make a space, or nothing at all, of a character that is none; this
is so for every character of the Unicode database.

* `strip_strip`, `upper_strip_again`, `lower_lower`: the second time changes nothing.
* `asciiStable`: the plain tables are stable.
-/

namespace PyText

/-- What a text is made of is not changed by a second mapping. -/
structure StableMap [UnicodeTables] (case : Char → List Char) : Prop where
  again : ∀ c, (case c).flatMap case = case c
  ne_nil : ∀ c, UnicodeTables.isSpace c = false → case c ≠ []
  not_space : ∀ c, UnicodeTables.isSpace c = false →
    ∀ d ∈ case c, UnicodeTables.isSpace d = false

/-- The laws of the Unicode database. -/
class StableTables [UnicodeTables] : Prop where
  upper : StableMap UnicodeTables.upper
  lower : StableMap UnicodeTables.lower
  sigma_notMem_lower : ∀ c ≠ 'Σ', 'Σ' ∉ UnicodeTables.lower c
  isSpace_sigma : ∀ c ∈ ['σ', 'ς'], UnicodeTables.isSpace c = false
  upper_ascii : ∀ c : Char, c.val < 128 → UnicodeTables.upper c = [c.toUpper]
  alnum_ascii : ∀ c : Char, c.isAlphanum = true → UnicodeTables.isSpace c = false

/-! ### Plain characters -/

theorem isUpper_iff {c : Char} : c.isUpper = true ↔ 'A'.val ≤ c.val ∧ c.val ≤ 'Z'.val :=
  decide_eq_true_iff

theorem isLower_iff {c : Char} : c.isLower = true ↔ 'a'.val ≤ c.val ∧ c.val ≤ 'z'.val :=
  (Bool.and_eq_true_iff).trans (and_congr decide_eq_true_iff decide_eq_true_iff)

theorem isAlpha_eq (c : Char) : c.isAlpha = (c.isUpper || c.isLower) := rfl

/-- What holds of all plain characters can be looked up. -/
theorem of_ascii {p : Char → Prop} (h : ∀ n : Fin 128, p (Char.ofNat n)) {c : Char}
    (hc : c.val < 128) : p c := by
  have hn : c.toNat < 128 := hc
  have hp := h ⟨c.toNat, hn⟩
  rwa [Char.ofNat_toNat] at hp

theorem val_lt_of_isAlpha {c : Char} (h : c.isAlpha = true) : c.val < 128 := by
  rw [isAlpha_eq, Bool.or_eq_true, isUpper_iff, isLower_iff] at h
  rcases h with ⟨-, hle⟩ | ⟨-, hle⟩
  · exact UInt32.lt_of_le_of_lt hle (by decide)
  · exact UInt32.lt_of_le_of_lt hle (by decide)

theorem val_lt_of_isUpper {c : Char} (h : c.isUpper = true) : c.val < 128 :=
  val_lt_of_isAlpha (by rw [isAlpha_eq, h, Bool.true_or])

theorem val_lt_of_isLower {c : Char} (h : c.isLower = true) : c.val < 128 :=
  val_lt_of_isAlpha (by rw [isAlpha_eq, h, Bool.or_true])

theorem toUpper_of_not_isLower {c : Char} (h : c.isLower = false) : c.toUpper = c :=
  dif_neg fun hc => by simp [isLower_iff.mpr hc] at h

theorem toLower_of_not_isUpper {c : Char} (h : c.isUpper = false) : c.toLower = c :=
  dif_neg fun hc => by simp [isUpper_iff.mpr hc] at h

theorem isLower_toUpper (c : Char) : c.toUpper.isLower = false := by
  cases h : c.isLower with
  | false => rwa [toUpper_of_not_isLower h]
  | true =>
    exact of_ascii (p := fun c => c.toUpper.isLower = false) (by decide) (val_lt_of_isLower h)

theorem isUpper_toLower (c : Char) : c.toLower.isUpper = false := by
  cases h : c.isUpper with
  | false => rwa [toLower_of_not_isUpper h]
  | true =>
    exact of_ascii (p := fun c => c.toLower.isUpper = false) (by decide) (val_lt_of_isUpper h)

theorem isUpper_toUpper {c : Char} (h : c.isLower = true) : c.toUpper.isUpper = true :=
  of_ascii (p := fun c => c.isLower = true → c.toUpper.isUpper = true) (by decide)
    (val_lt_of_isLower h) h

theorem isLower_toLower {c : Char} (h : c.isUpper = true) : c.toLower.isLower = true :=
  of_ascii (p := fun c => c.isUpper = true → c.toLower.isLower = true) (by decide)
    (val_lt_of_isUpper h) h

theorem isLower_of_isUpper {c : Char} (h : c.isUpper = true) : c.isLower = false :=
  of_ascii (p := fun c => c.isUpper = true → c.isLower = false) (by decide)
    (val_lt_of_isUpper h) h

theorem isWhitespace_of_isAlphanum {c : Char} (h : c.isAlphanum = true) :
    c.isWhitespace = false := by
  by_contra hspace
  rw [Bool.not_eq_false] at hspace
  simp only [Char.isWhitespace, Bool.or_eq_true, decide_eq_true_eq] at hspace
  rcases hspace with ((rfl | rfl) | rfl) | rfl <;> exact absurd h (by decide)

variable [UnicodeTables] {case : Char → List Char} {l : List Char} {s : String}

/-! ### Trimmed texts -/

/-- No space at either end. -/
structure Trimmed (l : List Char) : Prop where
  head : ∀ c ∈ l.head?, UnicodeTables.isSpace c = false
  last : ∀ c ∈ l.getLast?, UnicodeTables.isSpace c = false

theorem strip_eq (s : String) : strip s =
    String.ofList ((s.toList.dropWhile UnicodeTables.isSpace).rdropWhile UnicodeTables.isSpace) :=
  rfl

/-- A text that is not blank has a character that is none. -/
theorem strip_ne_iff {s : String} :
    strip s ≠ "" ↔ ∃ c ∈ s.toList, UnicodeTables.isSpace c = false := by
  have hback : strip s = "" ↔
      ∀ c ∈ s.toList.dropWhile UnicodeTables.isSpace, UnicodeTables.isSpace c = true := by
    rw [strip_eq, ← String.toList_eq_nil_iff, String.toList_ofList, List.rdropWhile_eq_nil_iff]
  have hall : (s.toList.dropWhile UnicodeTables.isSpace).all UnicodeTables.isSpace =
      s.toList.all UnicodeTables.isSpace := by
    have hany := List.any_dropWhile (l := s.toList) (p := UnicodeTables.isSpace)
    rw [← List.not_all_eq_any_not] at hany
    exact Bool.not_inj hany
  rw [Ne, hback, ← List.all_eq_true, hall]
  simp

theorem Trimmed.strip_eq (h : Trimmed l) : strip (String.ofList l) = String.ofList l := by
  rw [PyText.strip_eq, String.toList_ofList]
  have hfront : l.dropWhile UnicodeTables.isSpace = l := by
    cases l with
    | nil => rfl
    | cons c rest => exact List.dropWhile_cons_of_neg (by simp [h.head c rfl])
  have hback : l.rdropWhile UnicodeTables.isSpace = l := by
    rw [List.rdropWhile_eq_self_iff]
    intro hne
    simp [h.last _ (List.getLast?_eq_some_getLast hne)]
  rw [hfront, hback]

theorem trimmed_strip (s : String) : Trimmed (strip s).toList := by
  rw [strip_eq, String.toList_ofList]
  set front := s.toList.dropWhile UnicodeTables.isSpace with hfront
  refine ⟨fun c hc => ?_, fun c hc => ?_⟩
  · obtain ⟨spaces, hsplit⟩ := List.rdropWhile_prefix UnicodeTables.isSpace (l := front)
    have hhead : front.head? = some c := by
      rw [← hsplit, List.head?_append, Option.mem_def.mp hc]
      rfl
    have hnot := List.head?_dropWhile_not UnicodeTables.isSpace s.toList
    rw [← hfront, hhead] at hnot
    simpa using hnot
  · obtain ⟨hne, rfl⟩ := List.mem_getLast?_eq_getLast hc
    simpa using List.rdropWhile_last_not UnicodeTables.isSpace front hne

/-- A map that makes no spaces keeps the ends. -/
theorem Trimmed.flatMap (h : Trimmed l) (hcase : StableMap case) : Trimmed (l.flatMap case) := by
  refine ⟨fun d hd => ?_, fun d hd => ?_⟩
  · cases l with
    | nil => cases hd
    | cons c rest =>
      have hspace := h.head c rfl
      obtain ⟨e, more, hcons⟩ := List.exists_cons_of_ne_nil (hcase.ne_nil c hspace)
      rw [List.flatMap_cons, hcons] at hd
      refine hcase.not_space c hspace d ?_
      rw [hcons, ← Option.some.inj hd]
      exact List.mem_cons_self
  · cases l using List.reverseRecOn with
    | nil => cases hd
    | append_singleton rest c =>
      have hspace := h.last c (by rw [List.getLast?_concat]; rfl)
      rw [List.flatMap_append, List.flatMap_singleton, List.getLast?_append] at hd
      obtain ⟨e, he⟩ := Option.ne_none_iff_exists'.mp
        (mt List.getLast?_eq_none_iff.mp (hcase.ne_nil c hspace))
      rw [he] at hd
      obtain rfl : e = d := Option.some.inj hd
      exact hcase.not_space c hspace e (List.mem_of_getLast? he)

/-- **Stripping again changes nothing.** -/
theorem strip_strip (s : String) : strip (strip s) = strip s := by
  have h := (trimmed_strip s).strip_eq
  rwa [String.ofList_toList] at h

theorem again_of_stable (hcase : StableMap case) (s : String) :
    String.ofList ((strip (String.ofList ((strip s).toList.flatMap case))).toList.flatMap case) =
      String.ofList ((strip s).toList.flatMap case) := by
  rw [((trimmed_strip s).flatMap hcase).strip_eq, String.toList_ofList, List.flatMap_assoc]
  exact congrArg String.ofList (List.flatMap_congr fun c _ => hcase.again c)

variable [StableTables]

/-- Small sigmas are no spaces either. -/
theorem Trimmed.sigmas (h : Trimmed l) : Trimmed (sigmas [] l) := by
  have hspace : ∀ (c : Char) (before after : List Char), UnicodeTables.isSpace c = false →
      UnicodeTables.isSpace (if c = 'Σ' then lowerSigma before after else c) = false := by
    intro c before after hc
    split_ifs
    · exact StableTables.isSpace_sigma _ (lowerSigma_mem before after)
    · exact hc
  refine ⟨fun d hd => ?_, fun d hd => ?_⟩
  · cases l with
    | nil => cases hd
    | cons c rest =>
      obtain rfl := Option.some.inj hd
      exact hspace c [] rest (h.head c rfl)
  · cases l using List.reverseRecOn with
    | nil => cases hd
    | append_singleton rest c =>
      obtain ⟨front, -, hfront⟩ := sigmas_append [] rest [c]
      rw [hfront, PyText.sigmas, PyText.sigmas, List.getLast?_concat] at hd
      obtain rfl := Option.some.inj hd
      exact hspace c _ [] (h.last c (by rw [List.getLast?_concat]; rfl))

theorem Trimmed.lower (h : Trimmed s.toList) : Trimmed (lower s).toList := by
  rw [PyText.lower, String.toList_ofList]
  exact h.sigmas.flatMap StableTables.lower

theorem Trimmed.strip_lower (h : Trimmed s.toList) : strip (PyText.lower s) = PyText.lower s := by
  have hstrip := h.lower.strip_eq
  rwa [String.ofList_toList] at hstrip

/-- No capital sigma is left in lower case. -/
theorem sigma_notMem_lower (s : String) : 'Σ' ∉ (lower s).toList := by
  rw [lower, String.toList_ofList]
  intro hmem
  obtain ⟨c, hc, hlower⟩ := List.mem_flatMap.mp hmem
  have hne : c ≠ 'Σ' := by
    rcases mem_sigmas hc with hsigma | ⟨-, hne⟩
    · rintro rfl
      exact absurd hsigma (by decide)
    · exact hne
  exact StableTables.sigma_notMem_lower c hne hlower

/-- **A text in lower case stays as it is.** -/
theorem lower_lower (s : String) : lower (lower s) = lower s := by
  rw [lower_of_notMem (sigma_notMem_lower s)]
  unfold lower
  rw [String.toList_ofList, List.flatMap_assoc]
  exact congrArg String.ofList (List.flatMap_congr fun c _ => StableTables.lower.again c)

/-- **Nor does stripping and upper-casing.** -/
theorem upper_strip_again (s : String) : upper (strip (upper (strip s))) = upper (strip s) :=
  again_of_stable StableTables.upper s

theorem strip_lower_strip (s : String) : strip (lower (strip s)) = lower (strip s) :=
  (trimmed_strip s).strip_lower

theorem strip_upper_strip (s : String) : strip (upper (strip s)) = upper (strip s) :=
  ((trimmed_strip s).flatMap StableTables.upper).strip_eq

/-- What is left of a text is not lost in lower case. -/
theorem lower_strip_ne (h : strip s ≠ "") : lower (strip s) ≠ "" := by
  intro hempty
  have hlist : (strip s).toList ≠ [] := fun hnil => h (String.toList_eq_nil_iff.mp hnil)
  obtain ⟨c, rest, hcons⟩ := List.exists_cons_of_ne_nil hlist
  have hsigmas : sigmas [] (strip s).toList =
      (if c = 'Σ' then lowerSigma [] rest else c) :: sigmas [c] rest := by
    rw [hcons, sigmas]
  have hhead := (trimmed_strip s).sigmas.head (if c = 'Σ' then lowerSigma [] rest else c)
    (by rw [hsigmas]; rfl)
  have hne := StableTables.lower.ne_nil _ hhead
  have hnil : (sigmas [] (strip s).toList).flatMap UnicodeTables.lower = [] := by
    rw [← String.toList_ofList (l := (sigmas [] (strip s).toList).flatMap UnicodeTables.lower)]
    exact congrArg String.toList hempty
  rw [hsigmas, List.flatMap_cons] at hnil
  exact hne (List.append_eq_nil_iff.mp hnil).1

theorem upper_of_isUpper {c : Char} (h : c.isUpper = true) : UnicodeTables.upper c = [c] := by
  rw [StableTables.upper_ascii c (val_lt_of_isUpper h),
    toUpper_of_not_isLower (isLower_of_isUpper h)]

/-- A text of capitals stays as it is. -/
theorem upper_strip_of_capitals (h : ∀ c ∈ s.toList, c.isUpper = true) : upper (strip s) = s := by
  have hspace : ∀ c ∈ s.toList, UnicodeTables.isSpace c = false := fun c hc =>
    StableTables.alnum_ascii c (by rw [Char.isAlphanum, isAlpha_eq, h c hc]; rfl)
  have htrimmed : Trimmed s.toList := ⟨fun c hc => hspace c (List.mem_of_mem_head? hc),
    fun c hc => hspace c (List.mem_of_getLast? hc)⟩
  have hstrip := htrimmed.strip_eq
  rw [String.ofList_toList] at hstrip
  have hmap : ∀ l : List Char, (∀ c ∈ l, c.isUpper = true) →
      l.flatMap UnicodeTables.upper = l := by
    intro l hl
    induction l with
    | nil => rfl
    | cons c rest ih =>
      rw [List.flatMap_cons, upper_of_isUpper (hl c List.mem_cons_self),
        ih fun d hd => hl d (List.mem_cons_of_mem _ hd)]
      rfl
  rw [hstrip, upper, hmap _ h, String.ofList_toList]

omit [UnicodeTables] [StableTables] in
/-- The plain tables are stable. -/
theorem asciiStable : @StableTables asciiTables := by
  let _ := asciiTables
  refine ⟨⟨fun c => ?_, fun c _ => List.cons_ne_nil _ _, fun c hc d hd => ?_⟩,
    ⟨fun c => ?_, fun c _ => List.cons_ne_nil _ _, fun c hc d hd => ?_⟩, fun c hne hmem => ?_,
    forall_sigma rfl rfl, fun _ _ => rfl, fun c hc => isWhitespace_of_isAlphanum hc⟩
  · exact congrArg (List.cons · []) (toUpper_of_not_isLower (isLower_toUpper c))
  · rw [List.mem_singleton.mp hd]
    cases hlower : c.isLower with
    | true =>
      refine isWhitespace_of_isAlphanum ?_
      rw [Char.isAlphanum, isAlpha_eq, isUpper_toUpper hlower]
      rfl
    | false =>
      rw [toUpper_of_not_isLower hlower]
      exact hc
  · exact congrArg (List.cons · []) (toLower_of_not_isUpper (isUpper_toLower c))
  · rw [List.mem_singleton.mp hd]
    cases hupper : c.isUpper with
    | true =>
      refine isWhitespace_of_isAlphanum ?_
      rw [Char.isAlphanum, isAlpha_eq, isLower_toLower hupper, Bool.or_true]
      rfl
    | false =>
      rw [toLower_of_not_isUpper hupper]
      exact hc
  · have hsigma : 'Σ' = c.toLower := List.mem_singleton.mp hmem
    cases hupper : c.isUpper with
    | true =>
      have hlower := isLower_toLower hupper
      rw [← hsigma] at hlower
      exact absurd hlower (by decide)
    | false =>
      rw [toLower_of_not_isUpper hupper] at hsigma
      exact hne hsigma.symm

end PyText
