import FinancialDashboard.Lib.Words
import FinancialDashboard.Lib.StableCase
import FinancialDashboard.Paisa.Accounting

/-!
# The names the policy makes

Every account and every category has a name in every backend, and the caller is promised
either one that the backend's own validator takes or a `ProjectionError`, `Handled`.  For a
name of the operator this is so (`handled_override`), and for the generated ones of the
ledger family.  Beancount's normalization is outside the handler: it raises
`InvalidAccountName` for a segment that has no ASCII letter or digit, or whose first one is
a digit.

* `accepted_of_validate`, `accepted_of_normalize`: what a backend has taken it takes again.
* `isComponent_pascal`: which segments Beancount's normalization can save.
* `naming_handled_iff`: when the promise is kept.
* `numbered_label_unhandled`: an account whose label is a number.
-/

namespace FinancialDashboard.Paisa

open PyText Words

/-! ### Laws of the tables -/

/-- Neither a blank, nor a colon, nor what the journals reserve. -/
def IsPlain [UnicodeTables] (c : Char) : Prop :=
  UnicodeTables.isSpace c = false ∧ c ≠ ':' ∧ isUnsafeText c = false

/-- The laws of the Unicode database: the case maps make words of words. -/
class NamingTables [UnicodeTables] [TitleTables] : Prop where
  space : UnicodeTables.isSpace ' ' = true
  colon : UnicodeTables.isSpace ':' = false
  alnum : ∀ c, UnicodeTables.isAlnum c = true → UnicodeTables.isSpace c = false
  title_ne_nil : ∀ c, UnicodeTables.isAlnum c = true → TitleTables.title c ≠ []
  title : ∀ c, UnicodeTables.isAlnum c = true → ∀ d ∈ TitleTables.title c, IsPlain d
  lower : ∀ c, UnicodeTables.isAlnum c = true → ∀ d ∈ UnicodeTables.lower c, IsPlain d
  sigma : ∀ c ∈ ['σ', 'ς'], IsPlain c

/-! ### Segments that Beancount takes -/

/-- The first ASCII letter or digit of the segment is a letter. -/
def leadsWithLetter (segment : String) : Bool :=
  match segment.toList.find? isAsciiAlnum with
  | some c => c.isAlpha
  | none => false

theorem isUpper_toUpper_eq (c : Char) : c.toUpper.isUpper = c.isAlpha := by
  cases hlower : c.isLower with
  | true => simp [isUpper_toUpper hlower, isAlpha_eq, hlower]
  | false => simp [toUpper_of_not_isLower hlower, isAlpha_eq, hlower]

theorem isAsciiAlnum_toUpper {c : Char} (h : isAsciiAlnum c = true) :
    isAsciiAlnum c.toUpper = true := by
  cases hlower : c.isLower with
  | true => simp [isAsciiAlnum, Char.isAlphanum, isAlpha_eq, isUpper_toUpper hlower]
  | false => rwa [toUpper_of_not_isLower hlower]

theorem asciiWords_eq (segment : String) :
    asciiWords segment = wordsOf (!isAsciiAlnum ·) segment.toList := by
  unfold asciiWords wordsOf
  congr

/-- The characters of the words, the first of each a capital. -/
theorem isAsciiAlnum_of_mem_pascal {segment : String} {c : Char}
    (h : c ∈ (pascal segment).toList) : isAsciiAlnum c = true := by
  rw [pascal, String.toList_ofList, List.mem_flatMap] at h
  obtain ⟨w, hw, hc⟩ := h
  rw [asciiWords_eq] at hw
  have hword : ∀ d ∈ w, isAsciiAlnum d = true := fun d hd => by
    simpa using (mem_wordsOf hw).1.2 d hd
  cases w with
  | nil => cases hc
  | cons d rest =>
    rcases List.mem_cons.mp hc with rfl | hc
    · exact isAsciiAlnum_toUpper (hword d List.mem_cons_self)
    · exact hword c (List.mem_cons_of_mem d hc)

/-- **Beancount's normalization saves the segments that lead with a letter.** -/
theorem isComponent_pascal (segment : String) :
    isComponent (pascal segment) = leadsWithLetter segment := by
  have hrest : ∀ c ∈ (pascal segment).toList, isAsciiAlnum c = true :=
    fun c hc => isAsciiAlnum_of_mem_pascal hc
  have hfind : segment.toList.find? isAsciiAlnum = (asciiWords segment).flatten.head? := by
    rw [asciiWords_eq, flatten_wordsOf, List.head?_filter]
    simp
  rw [leadsWithLetter, hfind]
  unfold isComponent
  cases hwords : asciiWords segment with
  | nil =>
    have hnil : (pascal segment).toList = [] := by rw [pascal, hwords]; rfl
    rw [hnil]
    rfl
  | cons w ws =>
    have hw : IsWord (!isAsciiAlnum ·) w :=
      (mem_wordsOf (asciiWords_eq segment ▸ hwords ▸ List.mem_cons_self)).1
    obtain ⟨c, tail, rfl⟩ := List.exists_cons_of_ne_nil hw.1
    have hc : isAsciiAlnum c = true := by simpa using hw.2 c List.mem_cons_self
    obtain ⟨more, hmore⟩ : ∃ more, (pascal segment).toList = c.toUpper :: more := by
      rw [pascal, hwords, String.toList_ofList]
      exact ⟨_, rfl⟩
    rw [hmore] at hrest ⊢
    have hall : more.all isAsciiAlnum = true :=
      List.all_eq_true.mpr fun d hd => hrest d (List.mem_cons_of_mem _ hd)
    show (c.toUpper.isUpper && more.all isAsciiAlnum) = c.isAlpha
    rw [hall, Bool.and_true, isUpper_toUpper_eq]

theorem validateBeancount_pascal (name : AccountName) :
    validateBeancount { name with segments := name.segments.map pascal } =
      (!name.segments.isEmpty && name.segments.all leadsWithLetter) := by
  simp [validateBeancount, isComponent_pascal, Function.comp_def]

/-! ### Names as texts -/

theorem splitOnP_colon (text : List Char) : text.splitOnP (· = ':') = text.splitOn ':' := by
  rw [List.splitOn_eq_splitOnP]
  congr 1

theorem toList_name (name : AccountName) : name.name.toList =
    [':'].intercalate ((name.root.name :: name.segments).map String.toList) := by
  rw [AccountName.name, String.toList_intercalate]
  rfl

/-- **A text cut at its colons reads as before.** -/
theorem name_splitName (text : List Char) : (splitName text).name = String.ofList text := by
  have hjoin : [':'].intercalate (text.splitOn ':') = text := List.intercalate_splitOn ':'
  obtain ⟨root, segments, heq⟩ := List.exists_cons_of_ne_nil (List.splitOn_ne_nil ':' text)
  have hname : splitName text =
      ⟨.ofName (String.ofList root), segments.map String.ofList⟩ := by
    rw [splitName, splitOnP_colon, heq]
    rfl
  rw [← String.toList_inj, toList_name, hname, Root.name_ofName, String.toList_ofList]
  rw [heq] at hjoin
  simpa [Function.comp_def] using hjoin

/-- A name without colons in its segments is found again in its text. -/
theorem splitName_name {name : AccountName} (hroot : name.root.isKnown = true)
    (hsegments : ∀ s ∈ name.segments, ':' ∉ s.toList) : splitName name.name.toList = name := by
  obtain ⟨root, segments⟩ := name
  have hof : Root.ofName root.name = root ∧ ':' ∉ root.name.toList := by
    cases root with
    | other _ => cases hroot
    | _ => exact ⟨by decide, by decide⟩
  have hcut : ([':'].intercalate ((root.name :: segments).map String.toList)).splitOn ':' =
      (root.name :: segments).map String.toList := by
    refine List.splitOn_intercalate ':' (fun l hl => ?_) (List.cons_ne_nil _ _)
    obtain ⟨s, hs, rfl⟩ := List.mem_map.mp hl
    rcases List.mem_cons.mp hs with rfl | hs
    · exact hof.2
    · exact hsegments s hs
  rw [splitName, splitOnP_colon, toList_name, hcut]
  simp [hof.1, Function.comp_def]

/-- The characters of a name's text. -/
theorem mem_toList_name {name : AccountName} {c : Char} (h : c ∈ name.name.toList) :
    c = ':' ∨ ∃ s ∈ name.root.name :: name.segments, c ∈ s.toList := by
  rw [toList_name] at h
  rcases mem_join h with rfl | ⟨w, hw, hc⟩
  · exact .inl rfl
  · obtain ⟨s, hs, rfl⟩ := List.mem_map.mp hw
    exact .inr ⟨s, hs, hc⟩

variable [UnicodeTables]

/-- The words of a text that is not blank, joined: tidy, and made of it. -/
theorem tidy_joinWords {text : String} (h : strip text ≠ "") :
    Tidy UnicodeTables.isSpace ' ' (joinWords (words text.toList)).toList ∧
      ∀ c ∈ (joinWords (words text.toList)).toList, c = ' ' ∨ c ∈ text.toList := by
  obtain ⟨c, hc, hspace⟩ := strip_ne_iff.mp h
  refine ⟨?_, fun d hd => mem_joinWords hd⟩
  rw [joinWords, String.toList_ofList, words_eq]
  exact tidy_join (wordsOf_ne_nil hc hspace) fun w hw => (mem_wordsOf hw).1

/-- A tidy text is not blank. -/
theorem strip_ne_of_tidy {s : String} (h : Tidy UnicodeTables.isSpace ' ' s.toList) :
    strip s ≠ "" := by
  obtain ⟨c, rest, heq⟩ := List.exists_cons_of_ne_nil h.ne_nil
  exact strip_ne_iff.mpr ⟨c, heq ▸ List.mem_cons_self, h.head c (by rw [heq]; rfl)⟩

/-! ### What a backend has taken -/

theorem validate_beancount_iff {text : String} {name : AccountName} :
    validateAccountName .beancount text = some name ↔
      strip text ≠ "" ∧ text.toList.any isUnsafeText = false ∧ splitName text.toList = name ∧
        name.root.isKnown = true ∧ validateBeancount name = true := by
  have hunfold : validateAccountName .beancount text =
      if strip text = "" || text.toList.any isUnsafeText then none
      else if (splitName text.toList).root.isKnown && validateBeancount (splitName text.toList) then
        some (splitName text.toList)
      else none := rfl
  rw [hunfold]
  constructor
  · intro h
    split_ifs at h with hbad hgood
    obtain rfl := Option.some.inj h
    simp only [Bool.or_eq_true, decide_eq_true_eq, not_or, Bool.not_eq_true] at hbad
    rw [Bool.and_eq_true] at hgood
    exact ⟨hbad.1, hbad.2, rfl, hgood⟩
  · rintro ⟨hblank, hunsafe, rfl, hroot, hvalid⟩
    rw [if_neg (by simp [hblank, hunsafe]), if_pos (by simp [hroot, hvalid])]

/-- `validate` of the ledger family, which gives the words joined anew. -/
theorem validate_ledger_iff {backend : Backend} {text : String} {name : AccountName}
    (hbackend : backend ≠ .beancount) :
    validateAccountName backend text = some name ↔
      strip text ≠ "" ∧ text.toList.any isUnsafeText = false ∧
        splitName (joinWords (words text.toList)).toList = name ∧ name.segments ≠ [] ∧
          ∀ s ∈ name.root.name :: name.segments, strip s ≠ "" := by
  have hunfold : validateAccountName backend text =
      if strip text = "" || text.toList.any isUnsafeText then none
      else if (splitName (joinWords (words text.toList)).toList).segments.isEmpty ||
          ((splitName (joinWords (words text.toList)).toList).root.name ::
            (splitName (joinWords (words text.toList)).toList).segments).any (strip · = "") then
          none
        else some (splitName (joinWords (words text.toList)).toList) := by
    cases backend with
    | beancount => exact absurd rfl hbackend
    | ledger => rfl
    | hledger => rfl
  rw [hunfold]
  constructor
  · intro h
    split_ifs at h with hbad hempty
    obtain rfl := Option.some.inj h
    simp only [Bool.or_eq_true, decide_eq_true_eq, not_or, Bool.not_eq_true] at hbad
    simp only [Bool.or_eq_true, List.isEmpty_iff, List.any_eq_true, decide_eq_true_eq, not_or,
      not_exists, not_and] at hempty
    exact ⟨hbad.1, hbad.2, rfl, hempty.1, hempty.2⟩
  · rintro ⟨hblank, hunsafe, rfl, hne, hsegments⟩
    rw [if_neg (by simp [hblank, hunsafe]), if_neg]
    simpa [hne] using hsegments

variable [TitleTables] [NamingTables]

/-- **What a backend's validator has taken it takes again.** -/
theorem accepted_of_validate {backend : Backend} {text : String} {name : AccountName}
    (h : validateAccountName backend text = some name) :
    validateAccountName backend name.name = some name := by
  by_cases hbackend : backend = .beancount
  · subst hbackend
    obtain ⟨_, _, hsplit, _⟩ := validate_beancount_iff.mp h
    have hname : name.name = text := by rw [← hsplit, name_splitName, String.ofList_toList]
    rwa [hname]
  · rw [validate_ledger_iff hbackend] at h ⊢
    obtain ⟨hblank, hunsafe, hsplit, hne, hsegments⟩ := h
    obtain ⟨htidy, hchars⟩ := tidy_joinWords hblank
    have hname : name.name = joinWords (words text.toList) := by
      rw [← hsplit, name_splitName, String.ofList_toList]
    have hagain : joinWords (words (joinWords (words text.toList)).toList) =
        joinWords (words text.toList) := by
      rw [words_eq, joinWords, htidy.join_wordsOf NamingTables.space, String.ofList_toList]
    rw [hname, hagain]
    refine ⟨strip_ne_of_tidy htidy, ?_, hsplit, hne, hsegments⟩
    rw [List.any_eq_false] at hunsafe ⊢
    intro c hc
    rcases hchars c hc with rfl | hmem
    · decide
    · exact hunsafe c hmem

/-! ### Generated names -/

/-- A segment of a generated name: nothing, or words with a blank between. -/
def IsTitle (segment : String) : Prop :=
  segment = "" ∨ (Tidy UnicodeTables.isSpace ' ' segment.toList ∧
    ∀ c ∈ segment.toList, c ≠ ':' ∧ isUnsafeText c = false)

/-- A root of the policy over such segments. -/
structure Generated (raw : AccountName) : Prop where
  root : raw.root.isKnown = true
  segments : ∀ s ∈ raw.segments, IsTitle s

omit [UnicodeTables] [TitleTables] [NamingTables] in
theorem not_reserved_of_alnum {c : Char} (h : isAsciiAlnum c = true) :
    c ≠ ':' ∧ isUnsafeText c = false := by
  refine ⟨?_, ?_⟩
  · rintro rfl
    exact absurd h (by decide)
  · by_contra hunsafe
    rw [Bool.not_eq_false, isUnsafeText, decide_eq_true_eq] at hunsafe
    simp only [List.mem_cons, List.not_mem_nil, or_false] at hunsafe
    rcases hunsafe with rfl | rfl | rfl | rfl | rfl | rfl <;> exact absurd h (by decide)

omit [UnicodeTables] [TitleTables] [NamingTables] in
theorem isAlpha_of_mem_root {root : Root} (h : root.isKnown = true) :
    ∀ c ∈ root.name.toList, c.isAlpha = true := by
  have hall : root.name.toList.all Char.isAlpha = true := by
    cases root with
    | other _ => cases h
    | _ => decide
  exact List.all_eq_true.mp hall

omit [TitleTables] [NamingTables] in
theorem isWord_root {root : Root} (h : root.isKnown = true) :
    IsWord UnicodeTables.isSpace root.name.toList := by
  refine ⟨?_, fun c hc => UnicodeTables.isSpace_letter c (isAlpha_of_mem_root h c hc)⟩
  cases root with
  | other _ => cases h
  | _ => decide

omit [UnicodeTables] [TitleTables] [NamingTables] in
/-- Nothing that the journals reserve gets into the text. -/
theorem not_unsafe_name {name : AccountName} (hroot : name.root.isKnown = true)
    (hsegments : ∀ s ∈ name.segments, ∀ c ∈ s.toList, isUnsafeText c = false) :
    name.name.toList.any isUnsafeText = false := by
  rw [List.any_eq_false]
  intro c hc
  rw [Bool.not_eq_true]
  rcases mem_toList_name hc with rfl | ⟨s, hs, hmem⟩
  · decide
  · rcases List.mem_cons.mp hs with rfl | hs
    · refine (not_reserved_of_alnum ?_).2
      rw [isAsciiAlnum, Char.isAlphanum, isAlpha_of_mem_root hroot c hmem, Bool.true_or]
    · exact hsegments s hs c hmem

omit [TitleTables] [NamingTables] in
theorem strip_name_ne {name : AccountName} (hroot : name.root.isKnown = true) :
    strip name.name ≠ "" := by
  obtain ⟨hne, hword⟩ := isWord_root hroot
  obtain ⟨c, rest, heq⟩ := List.exists_cons_of_ne_nil hne
  refine strip_ne_iff.mpr ⟨c, ?_, hword c (heq ▸ List.mem_cons_self)⟩
  rw [toList_name, List.map_cons, heq]
  cases name.segments <;> simp

/-- Tidy segments make a tidy name. -/
theorem tidy_name {name : AccountName} (hroot : name.root.isKnown = true)
    (hsegments : ∀ s ∈ name.segments, Tidy UnicodeTables.isSpace ' ' s.toList) :
    Tidy UnicodeTables.isSpace ' ' name.name.toList := by
  have hall : ∀ s ∈ name.root.name :: name.segments,
      Tidy UnicodeTables.isSpace ' ' s.toList := by
    intro s hs
    rcases List.mem_cons.mp hs with rfl | hs
    · exact .word (isWord_root hroot)
    · exact hsegments s hs
  rw [toList_name]
  have hne : name.root.name :: name.segments ≠ [] := List.cons_ne_nil _ _
  generalize name.root.name :: name.segments = all at hall hne
  induction all with
  | nil => exact absurd rfl hne
  | cons s rest ih =>
    have hs := hall s List.mem_cons_self
    cases rest with
    | nil => simpa using hs
    | cons t rest =>
      have hrest := ih (fun u hu => hall u (List.mem_cons_of_mem s hu)) (List.cons_ne_nil t rest)
      rw [List.map_cons, List.map_cons, List.intercalate_cons_cons, List.append_assoc]
      exact hs.glue NamingTables.colon hrest

/-- **A generated name that is not refused is one the backend's validator takes.** -/
theorem accepted_of_normalize {backend : Backend} {raw name : AccountName} {label : String}
    (hraw : Generated raw) (h : normalizePolicyAccount backend raw label = .ok name) :
    validateAccountName backend name.name = some name := by
  by_cases hbackend : backend = .beancount
  · subst hbackend
    simp only [normalizePolicyAccount] at h
    split_ifs at h with hvalid
    obtain rfl := Except.ok.inj h
    have hsegments : ∀ s ∈ raw.segments.map pascal, ∀ c ∈ s.toList,
        c ≠ ':' ∧ isUnsafeText c = false := by
      intro s hs c hc
      obtain ⟨segment, _, rfl⟩ := List.mem_map.mp hs
      exact not_reserved_of_alnum (isAsciiAlnum_of_mem_pascal hc)
    exact validate_beancount_iff.mpr ⟨strip_name_ne hraw.root,
      not_unsafe_name hraw.root fun s hs c hc => (hsegments s hs c hc).2,
      splitName_name hraw.root fun s hs hc => (hsegments s hs _ hc).1 rfl, hraw.root, hvalid⟩
  · have hvalid : validateLedger raw = true ∧ raw = name := by
      cases backend with
      | beancount => exact absurd rfl hbackend
      | _ =>
        simp only [normalizePolicyAccount] at h
        split_ifs at h with hvalid
        exact ⟨hvalid, Except.ok.inj h⟩
    obtain ⟨hvalid, rfl⟩ := hvalid
    simp only [validateLedger, Bool.and_eq_true, Bool.not_eq_true', List.isEmpty_eq_false_iff,
      List.all_eq_true, decide_eq_true_eq] at hvalid
    obtain ⟨hne, hsegments⟩ := hvalid
    have htitle : ∀ s ∈ raw.segments, Tidy UnicodeTables.isSpace ' ' s.toList ∧
        ∀ c ∈ s.toList, c ≠ ':' ∧ isUnsafeText c = false := by
      intro s hs
      rcases hraw.segments s hs with rfl | htitle
      · exact absurd rfl (hsegments "" hs).1
      · exact htitle
    have htidy := tidy_name hraw.root fun s hs => (htitle s hs).1
    have hwords : joinWords (words raw.name.toList) = raw.name := by
      rw [words_eq, joinWords, htidy.join_wordsOf NamingTables.space, String.ofList_toList]
    refine (validate_ledger_iff hbackend).mpr ⟨strip_ne_of_tidy htidy,
      not_unsafe_name hraw.root fun s hs c hc => ((htitle s hs).2 c hc).2, ?_, hne, ?_⟩
    · rw [hwords]
      exact splitName_name hraw.root fun s hs hc => ((htitle s hs).2 _ hc).1 rfl
    · intro s hs
      rcases List.mem_cons.mp hs with rfl | hs
      · exact strip_ne_of_tidy (.word (isWord_root hraw.root))
      · exact strip_ne_of_tidy (htitle s hs).1

omit [TitleTables] [NamingTables] in
theorem isTitle_joinWords {ws : List (List Char)}
    (h : ∀ w ∈ ws, w ≠ [] ∧ ∀ c ∈ w, IsPlain c) : IsTitle (joinWords ws) := by
  by_cases hnil : ws = []
  · subst hnil
    exact .inl rfl
  · refine .inr ⟨?_, fun c hc => ?_⟩
    · rw [joinWords, String.toList_ofList]
      exact tidy_join hnil fun w hw => ⟨(h w hw).1, fun d hd => ((h w hw).2 d hd).1⟩
    · rw [joinWords, String.toList_ofList] at hc
      rcases mem_join hc with rfl | ⟨w, hw, hcw⟩
      · decide
      · exact ((h w hw).2 c hcw).2

omit [TitleTables] [NamingTables] in
/-- The policy's own segments are words of letters. -/
theorem isTitle_of_letters (ws : List (List Char))
    (h : ws.all (fun w => !w.isEmpty && w.all Char.isAlpha) = true) : IsTitle (joinWords ws) := by
  refine isTitle_joinWords fun w hw => ?_
  have hword := List.all_eq_true.mp h w hw
  rw [Bool.and_eq_true, Bool.not_eq_true', List.isEmpty_eq_false_iff, List.all_eq_true] at hword
  refine ⟨hword.1, fun c hc => ⟨UnicodeTables.isSpace_letter c (hword.2 c hc), ?_⟩⟩
  refine not_reserved_of_alnum ?_
  rw [isAsciiAlnum, Char.isAlphanum, hword.2 c hc, Bool.true_or]

theorem isTitle_titleSegment (value : String) : IsTitle (titleSegment value) := by
  have hplain : ∀ w : List Char, (∀ c ∈ w, UnicodeTables.isAlnum c = true) → w ≠ [] →
      capitalize w ≠ [] ∧ ∀ d ∈ capitalize w, IsPlain d := by
    intro w hw hne
    obtain ⟨c, rest, rfl⟩ := List.exists_cons_of_ne_nil hne
    refine ⟨?_, fun d hd => ?_⟩
    · intro hnil
      exact NamingTables.title_ne_nil c (hw c List.mem_cons_self) (List.append_eq_nil_iff.mp hnil).1
    · rcases List.mem_append.mp hd with hd | hd
      · exact NamingTables.title c (hw c List.mem_cons_self) d hd
      · obtain ⟨e, he, hde⟩ := List.mem_flatMap.mp hd
        rcases mem_sigmas he with hsigma | ⟨he, -⟩
        · rw [UnicodeTables.lower_sigma e hsigma] at hde
          rw [List.mem_singleton.mp hde]
          exact NamingTables.sigma e hsigma
        · exact NamingTables.lower e (hw e (List.mem_cons_of_mem c he)) d hde
  set cleaned := value.toList.map fun c =>
    if UnicodeTables.isAlnum c || UnicodeTables.isSpace c then c else ' ' with hcleaned
  have hchars : ∀ c ∈ cleaned, UnicodeTables.isSpace c = false →
      UnicodeTables.isAlnum c = true := by
    intro c hc hspace
    obtain ⟨d, _, rfl⟩ := List.mem_map.mp hc
    split_ifs at hspace ⊢ with hkept
    · simpa [hspace] using hkept
    · rw [NamingTables.space] at hspace
      cases hspace
  have hall : ∀ w ∈ (words cleaned).map capitalize, w ≠ [] ∧ ∀ d ∈ w, IsPlain d := by
    intro w hw
    obtain ⟨v, hv, rfl⟩ := List.mem_map.mp hw
    rw [words_eq] at hv
    obtain ⟨⟨hne, hword⟩, hmem⟩ := mem_wordsOf hv
    exact hplain v (fun c hc => hchars c (hmem c hc) (hword c hc)) hne
  have htitle : titleSegment value = joinWords ((words cleaned).map capitalize) := rfl
  rw [htitle]
  exact isTitle_joinWords hall

/-! ### Accounts and categories -/

theorem generated_defaultAccountName (account : Account) (kind : AccountKind) :
    Generated (defaultAccountName account kind) := by
  have hpath : ∀ {root : Root} {first : String}, root.isKnown = true → IsTitle first →
      Generated ⟨root, [first, titleSegment account.bank, titleSegment account.label]⟩ := by
    intro root first hroot hfirst
    refine ⟨hroot, fun s hs => ?_⟩
    simp only [List.mem_cons, List.not_mem_nil, or_false] at hs
    rcases hs with rfl | rfl | rfl
    · exact hfirst
    · exact isTitle_titleSegment _
    · exact isTitle_titleSegment _
  cases kind with
  | asset => exact hpath rfl (isTitle_of_letters ["Bank".toList] (by decide))
  | liability => exact hpath rfl (isTitle_of_letters ["Card".toList] (by decide))

theorem generated_defaultContra (slug : String) : Generated (defaultContra slug) := by
  have hone : ∀ {root : Root} {segment : String}, root.isKnown = true → IsTitle segment →
      Generated ⟨root, [segment]⟩ := fun hroot hsegment =>
    ⟨hroot, fun s hs => List.mem_singleton.mp hs ▸ hsegment⟩
  unfold defaultContra
  split
  · refine ⟨rfl, fun s hs => ?_⟩
    simp only [investmentUnallocatedAccount, List.mem_cons, List.not_mem_nil, or_false] at hs
    rcases hs with rfl | rfl
    · exact isTitle_of_letters ["Investments".toList] (by decide)
    · exact isTitle_of_letters ["Unallocated".toList] (by decide)
  · exact hone rfl (isTitle_of_letters ["Transfers".toList, "In".toList] (by decide))
  · exact hone rfl (isTitle_titleSegment slug)
  · exact hone rfl (isTitle_of_letters ["Unknown".toList] (by decide))
  · exact hone rfl (isTitle_titleSegment slug)

/-- The account of the category does not depend on its slug. -/
def hasFixedContra (slug : String) : Bool :=
  categoryKind slug ∈ [.investment, .repayment, .unknown]

omit [NamingTables] in
/-- What Beancount makes of a category's account turns on its title. -/
theorem leads_defaultContra (slug : String) :
    (∀ s ∈ (defaultContra slug).segments, leadsWithLetter s = true) ↔
      hasFixedContra slug = true ∨ leadsWithLetter (titleSegment slug) = true := by
  unfold defaultContra hasFixedContra
  cases categoryKind slug
  all_goals simp [investmentUnallocatedAccount, repaymentClearingAccount]
  all_goals decide

/-! ### The promise -/

/-- A name that the backend's own validator takes, or the error that the callers handle. -/
def Handled (backend : Backend) : Except NameError AccountName → Prop
  | .ok name => validateAccountName backend name.name = some name
  | .error (.projectionError _ _ _) => True
  | .error (.invalidAccountName _) => False

/-- **A name of the operator is taken or refused.** -/
theorem handled_override (backend : Backend) (raw label : String) :
    Handled backend (overrideName backend raw label) := by
  unfold overrideName
  cases hvalid : validateAccountName backend raw with
  | none => trivial
  | some name => exact accepted_of_validate hvalid

theorem handled_normalize_iff {backend : Backend} {raw : AccountName} {label : String}
    (hraw : Generated raw) (hne : raw.segments ≠ []) :
    Handled backend (normalizePolicyAccount backend raw label) ↔
      backend ≠ .beancount ∨ ∀ s ∈ raw.segments, leadsWithLetter s = true := by
  cases hname : normalizePolicyAccount backend raw label with
  | ok name =>
    refine iff_of_true (accepted_of_normalize hraw hname) ?_
    by_cases hbackend : backend = .beancount
    · subst hbackend
      simp only [normalizePolicyAccount] at hname
      split_ifs at hname with hvalid
      rw [validateBeancount_pascal, Bool.and_eq_true, List.all_eq_true] at hvalid
      exact .inr hvalid.2
    · exact .inl hbackend
  | error err =>
    cases backend with
    | beancount =>
      simp only [normalizePolicyAccount] at hname
      split_ifs at hname with hvalid
      obtain rfl := Except.error.inj hname
      refine iff_of_false (fun h => h) ?_
      rw [validateBeancount_pascal, Bool.and_eq_true, List.all_eq_true] at hvalid
      rintro (hbackend | hleads)
      · exact hbackend rfl
      · exact hvalid ⟨by simpa using hne, hleads⟩
    | _ =>
      simp only [normalizePolicyAccount] at hname
      split_ifs at hname with hvalid
      obtain rfl := Except.error.inj hname
      exact iff_of_true trivial (.inl (by decide))

/-- **The promise is kept for a name of the operator, for the ledger family, and for what
has a letter before any digit in each segment that it names.** -/
theorem naming_handled_iff (account : Account) (category : Option String)
    (accountMappings categoryMappings : Mappings) (backend : Backend) :
    (Handled backend ((resolveAccount account accountMappings backend).map (·.name)) ↔
      (accountMappings.lookup (toString account.id)).isSome = true ∨ backend ≠ .beancount ∨
        (leadsWithLetter (titleSegment account.bank) = true ∧
          leadsWithLetter (titleSegment account.label) = true)) ∧
    (Handled backend (contraAccount category categoryMappings backend) ↔
      (categoryMappings.lookup (categorySlug category)).isSome = true ∨ backend ≠ .beancount ∨
        hasFixedContra (categorySlug category) = true ∨
          leadsWithLetter (titleSegment (categorySlug category)) = true) := by
  constructor
  · have hresolve : (resolveAccount account accountMappings backend).map (·.name) =
        ledgerName account accountMappings backend := by
      unfold resolveAccount
      cases ledgerName account accountMappings backend <;> rfl
    rw [hresolve]
    unfold ledgerName
    cases accountMappings.lookup (toString account.id) with
    | some override => simp [handled_override]
    | none =>
      have hgenerated := generated_defaultAccountName account (accountKind account.type)
      dsimp only
      rw [handled_normalize_iff hgenerated (by unfold defaultAccountName; split <;> simp)]
      have hfixed : leadsWithLetter "Card" = true ∧ leadsWithLetter "Bank" = true := by decide
      cases accountKind account.type <;> simp [defaultAccountName, hfixed]
  · unfold contraAccount
    dsimp only
    cases categoryMappings.lookup (categorySlug category) with
    | some override => simp [handled_override]
    | none =>
      have hgenerated := generated_defaultContra (categorySlug category)
      dsimp only
      have hne : (defaultContra (categorySlug category)).segments ≠ [] := by
        unfold defaultContra
        split <;> exact List.cons_ne_nil _ _
      rw [handled_normalize_iff hgenerated hne, leads_defaultContra]
      simp

omit [UnicodeTables] [TitleTables] [NamingTables] in
/-- The plain tables make words of words. -/
theorem asciiNaming : @NamingTables asciiTables asciiTitles := by
  let _ := asciiTables
  let _ := asciiTitles
  have hplain : ∀ c : Char, c.isAlphanum = true → IsPlain c := fun c hc =>
    ⟨isWhitespace_of_isAlphanum hc, not_reserved_of_alnum hc⟩
  refine ⟨by decide, by decide, fun c hc => isWhitespace_of_isAlphanum hc,
    fun c _ => List.cons_ne_nil _ _, fun c hc d hd => ?_, fun c hc d hd => ?_,
    forall_sigma ⟨by decide, by decide, by decide⟩ ⟨by decide, by decide, by decide⟩⟩
  · rw [List.mem_singleton.mp hd]
    exact hplain _ (isAsciiAlnum_toUpper hc)
  · rw [List.mem_singleton.mp hd]
    refine hplain _ ?_
    cases hupper : c.isUpper with
    | true => rw [Char.isAlphanum, isAlpha_eq, isLower_toLower hupper, Bool.or_true, Bool.true_or]
    | false => rwa [toLower_of_not_isUpper hupper]

omit [UnicodeTables] [TitleTables] [NamingTables] in
theorem naming_handled_savings :
    let _ := asciiTables
    let _ := asciiTitles
    Handled .beancount
        ((resolveAccount ⟨1, "hdfc", "salary plus", "savings", none⟩ ∅ .beancount).map (·.name)) ∧
      Handled .beancount (contraAccount (some "dining_out") ∅ .beancount) := by
  have hiff := @naming_handled_iff asciiTables asciiTitles asciiNaming
    ⟨1, "hdfc", "salary plus", "savings", none⟩ (some "dining_out") ∅ ∅ .beancount
  exact ⟨hiff.1.mpr (.inr (.inr (by decide))), hiff.2.mpr (.inr (.inr (.inr (by decide))))⟩

omit [UnicodeTables] [TitleTables] [NamingTables] in
/-- **A label that is a number has no name in Beancount**, nor does a category that leads
with one: the exception is not one the callers handle. -/
theorem numbered_label_unhandled :
    let _ := asciiTables
    let _ := asciiTitles
    (resolveAccount ⟨1, "hdfc", "12345", "savings", none⟩ ∅ .beancount).map (·.name) =
        .error (.invalidAccountName "Assets:Bank:Hdfc:12345") ∧
      ¬ Handled .beancount
        ((resolveAccount ⟨1, "hdfc", "12345", "savings", none⟩ ∅ .beancount).map (·.name)) ∧
      ¬ Handled .beancount (contraAccount (some "3d_printing") ∅ .beancount) := by
  intro _ _
  have haccount : (resolveAccount ⟨1, "hdfc", "12345", "savings", none⟩ ∅ .beancount).map (·.name) =
      .error (.invalidAccountName "Assets:Bank:Hdfc:12345") := by decide
  have hcategory : contraAccount (some "3d_printing") ∅ .beancount =
      .error (.invalidAccountName "Expenses:3d Printing") := by decide
  refine ⟨haccount, ?_, ?_⟩
  · rw [haccount]
    exact fun h => h
  · rw [hcategory]
    exact fun h => h

end FinancialDashboard.Paisa
