import FinancialDashboard.Lib.Numerals
import FinancialDashboard.Lib.Skeleton
import FinancialDashboard.Paisa.Document

/-!
# The skeleton of a journal

What of a line of the journal tells the structure: `cut` empties the strings of Beancount and
the comments of the ledger family, and takes the payee out of a header.

* `map_metaLines_blank`: no metadata value is left.
* `textSkeleton_header`, `textSkeleton_ledgerHeader`: of a header the date is left, and where
  its strings are or the comment behind it.
* `textSkeleton_journalText`: the skeleton of a text is that of its lines.
-/

namespace FinancialDashboard.Paisa

open PyText PyTime Skeleton

/-! ### Skeletons -/

/-- What is left of a line of the ledger family: of a header its date and its comment, of a
comment the key, of any other line all. -/
def cutLedger (line : List Char) : List Char :=
  match line with
  | [] => []
  | c :: _ =>
    if c.isDigit then line.takeWhile (· ≠ '*') ++ line.dropWhile (· ≠ ';')
    else if c = ' ' && (line.dropWhile (· = ' ')).head? = some ';' then line.takeWhile (· ≠ ':')
    else line

/-- What is left of a line; of Beancount's, all but the contents of the strings. -/
def cut (backend : Backend) (line : List Char) : List Char :=
  match backend with
  | .beancount => eraseLiterals false line
  | .ledger | .hledger => cutLedger line

/-- The lines of a text, each cut down to its structure. -/
def textSkeleton (backend : Backend) (text : String) : List (List Char) :=
  skeleton '\n' (cut backend) text.toList

def OneLine (text : String) : Prop := '\n' ∉ text.toList

instance (text : String) : Decidable (OneLine text) := inferInstanceAs (Decidable (_ ∉ _))

/-! ### Texts on one line -/

theorem OneLine.append {a b : String} (ha : OneLine a) (hb : OneLine b) : OneLine (a ++ b) := by
  rw [OneLine, String.toList_append, List.mem_append, not_or]
  exact ⟨ha, hb⟩

theorem oneLine_of_forall {text : String} (h : ∀ c ∈ text.toList, c ≠ '\n') : OneLine text :=
  fun hmem => h _ hmem rfl

theorem oneLine_toString (n : Nat) : OneLine (toString n) := by
  refine oneLine_of_forall fun c hc => ?_
  rintro rfl
  exact absurd (isDigit_of_mem_toString hc) (by decide)

theorem oneLine_isoformat (date : Int) : OneLine (isoformat date) := by
  refine oneLine_of_forall fun c hc => ?_
  rintro rfl
  exact absurd (mem_isoformat hc) (by decide)

theorem oneLine_intercalate {sep : String} {texts : List String} (hsep : OneLine sep)
    (h : ∀ text ∈ texts, OneLine text) : OneLine (String.intercalate sep texts) := by
  induction texts with
  | nil => simp [OneLine]
  | cons text rest ih =>
    cases rest with
    | nil => simpa using h text List.mem_cons_self
    | cons next more =>
      have hrest := ih fun t ht => h t (List.mem_cons_of_mem _ ht)
      rw [OneLine, String.toList_intercalate] at hrest ⊢
      rw [List.map_cons, List.map_cons, List.intercalate_cons_cons, List.mem_append,
        List.mem_append, not_or, not_or]
      exact ⟨⟨h text List.mem_cons_self, hsep⟩, hrest⟩

theorem oneLine_indent (level : Nat) : OneLine (indent level) := by
  refine oneLine_of_forall fun c hc => ?_
  rw [indent, String.toList_ofList] at hc
  rw [List.eq_of_mem_replicate hc]
  decide

theorem toList_quoteString (text : String) :
    (quoteString text).toList = '"' :: (escape text.toList ++ ['"']) := by
  simp only [quoteString, String.toList_append, String.toList_ofList]
  rfl

theorem oneLine_quoteString {text : String} (h : OneLine text) : OneLine (quoteString text) := by
  refine oneLine_of_forall fun c hc => ?_
  rintro rfl
  rw [toList_quoteString] at hc
  simp only [List.mem_cons, List.mem_append, List.not_mem_nil, or_false] at hc
  rcases hc with hc | hc | hc
  · exact absurd hc (by decide)
  · obtain ⟨d, hd, hc⟩ := List.mem_flatMap.mp hc
    split_ifs at hc
    · simp only [List.mem_cons, List.not_mem_nil, or_false] at hc
      rcases hc with hc | rfl
      · exact absurd hc (by decide)
      · exact h hd
    · exact h (List.mem_singleton.mp hc ▸ hd)
  · exact absurd hc (by decide)

theorem oneLine_of_safe {text : String} (h : ∀ c ∈ text.toList, isUnsafeText c = false) :
    OneLine text := fun hmem => absurd (h _ hmem) (by decide)

/-! ### Metadata -/

def blankDetails (details : List (String × MetaValue)) : List (String × MetaValue) :=
  details.map fun kv => (kv.1, .text "")

/-- Keys without quotes, and no line breaks. -/
def PlainDetails (details : List (String × MetaValue)) : Prop :=
  ∀ kv ∈ details, OneLine kv.1 ∧ '"' ∉ kv.1.toList ∧ OneLine kv.2.render

theorem PlainDetails.nil : PlainDetails [] := fun _ h => absurd h List.not_mem_nil

theorem PlainDetails.cons {key : String} {value : MetaValue} {rest : List (String × MetaValue)}
    (hkey : OneLine key) (hquote : '"' ∉ key.toList) (hvalue : OneLine value.render)
    (h : PlainDetails rest) : PlainDetails ((key, value) :: rest) := by
  intro kv hkv
  rcases List.mem_cons.mp hkv with rfl | hkv
  · exact ⟨hkey, hquote, hvalue⟩
  · exact h kv hkv

theorem PlainDetails.append {details more : List (String × MetaValue)} (h : PlainDetails details)
    (hmore : PlainDetails more) : PlainDetails (details ++ more) := by
  intro kv hkv
  rcases List.mem_append.mp hkv with hkv | hkv
  · exact h kv hkv
  · exact hmore kv hkv

/-! ### Lines that are cut down alike -/

section

variable {backend : Backend} {line line' : String}

theorem textSkeleton_eq (h : OneLine line) (h' : OneLine line')
    (hcut : cut backend line.toList = cut backend line'.toList) :
    textSkeleton backend line = textSkeleton backend line' := by
  rw [textSkeleton, textSkeleton, skeleton_line h, skeleton_line h', hcut]

/-- No line is cut down to nothing. -/
theorem eq_nil_of_cut (backend : Backend) (line : List Char) (h : cut backend line = []) :
    line = [] := by
  have hledger : cutLedger line = [] → line = [] := by
    intro h
    cases line with
    | nil => rfl
    | cons c rest =>
      unfold cutLedger at h
      dsimp only at h
      split_ifs at h with hdigit hcomment
      · have hstar : c ≠ '*' := by
          rintro rfl
          exact absurd hdigit (by decide)
        exact absurd h (by simp [hstar])
      · have hcolon : c ≠ ':' := by
          rintro rfl
          exact absurd hcomment (by simp)
        exact absurd h (by simp [hcolon])
  cases backend with
  | beancount => exact eq_nil_of_eraseLiterals h
  | ledger => exact hledger h
  | hledger => exact hledger h

/-- Of a comment the key is left. -/
theorem cutLedger_comment (level : Nat) (key value : List Char) :
    cutLedger ((indent (level + 1)).toList ++ ';' :: (key ++ ':' :: value)) =
      ((indent (level + 1)).toList ++ ';' :: key).takeWhile (· ≠ ':') := by
  have hindent : (indent (level + 1)).toList = ' ' :: List.replicate (4 * level + 3) ' ' := by
    rw [indent, String.toList_ofList]
    rfl
  have hhead : ((indent (level + 1)).toList ++ ';' :: (key ++ ':' :: value)).dropWhile (· = ' ') =
      ';' :: (key ++ ':' :: value) := by
    have hblanks : ∀ c ∈ (indent (level + 1)).toList, decide (c = ' ') = true := by
      intro c hc
      rw [indent, String.toList_ofList] at hc
      exact decide_eq_true (List.eq_of_mem_replicate hc)
    rw [List.dropWhile_append_of_pos hblanks, List.dropWhile_cons_of_neg (by decide)]
  have hcut : cutLedger ((indent (level + 1)).toList ++ ';' :: (key ++ ':' :: value)) =
      ((indent (level + 1)).toList ++ ';' :: (key ++ ':' :: value)).takeWhile (· ≠ ':') := by
    generalize htext : (indent (level + 1)).toList ++ ';' :: (key ++ ':' :: value) = text at hhead ⊢
    rw [hindent, List.cons_append] at htext
    subst htext
    unfold cutLedger
    dsimp only
    rw [if_neg (by decide), if_pos (by rw [hhead]; rfl)]
  rw [hcut, ← List.cons_append, ← List.append_assoc]
  exact takeWhile_append_cons (by decide) _ _

/-- Of a header the date and the comment are left. -/
theorem cutLedger_header {date : Int} {payee : List Char} (h : ';' ∉ payee) (comment : List Char) :
    cutLedger ((isoformat date).toList ++ ' ' :: '*' :: (payee ++ comment)) =
      (isoformat date).toList ++ ' ' :: comment.dropWhile (· ≠ ';') := by
  have hiso : ∀ c ∈ (isoformat date).toList, c ≠ '*' ∧ c ≠ ';' := by
    intro c hc
    constructor
    · rintro rfl
      exact absurd (mem_isoformat hc) (by decide)
    · rintro rfl
      exact absurd (mem_isoformat hc) (by decide)
  have htake : ((isoformat date).toList ++ ' ' :: '*' :: (payee ++ comment)).takeWhile (· ≠ '*') =
      (isoformat date).toList ++ [' '] := by
    rw [List.takeWhile_append_of_pos fun c hc => decide_eq_true (hiso c hc).1,
      List.takeWhile_cons_of_pos (by decide), List.takeWhile_cons_of_neg (by decide)]
  have hdrop : ((isoformat date).toList ++ ' ' :: '*' :: (payee ++ comment)).dropWhile (· ≠ ';') =
      comment.dropWhile (· ≠ ';') := by
    rw [List.dropWhile_append_of_pos fun c hc => decide_eq_true (hiso c hc).2,
      List.dropWhile_cons_of_pos (by decide), List.dropWhile_cons_of_pos (by decide),
      List.dropWhile_append_of_pos fun c hc => decide_eq_true (ne_of_mem_of_not_mem hc h)]
  obtain ⟨c, rest, hfirst, hdigit⟩ := exists_digit_isoformat date
  have hcut : cutLedger ((isoformat date).toList ++ ' ' :: '*' :: (payee ++ comment)) =
      ((isoformat date).toList ++ ' ' :: '*' :: (payee ++ comment)).takeWhile (· ≠ '*') ++
        ((isoformat date).toList ++ ' ' :: '*' :: (payee ++ comment)).dropWhile (· ≠ ';') := by
    rw [hfirst, List.cons_append]
    exact if_pos hdigit
  rw [hcut, htake, hdrop, List.append_assoc]
  rfl

theorem cut_eq_cutLedger (hbackend : backend ≠ .beancount) (line : List Char) :
    cut backend line = cutLedger line := by
  cases backend with
  | beancount => exact absurd rfl hbackend
  | ledger => rfl
  | hledger => rfl

/-- Of a tag the key is left. -/
theorem textSkeleton_tag (hbackend : backend ≠ .beancount) {level : Nat}
    {key value value' : String} (hkey : OneLine key) (h : OneLine value) (h' : OneLine value') :
    textSkeleton backend (indent (level + 1) ++ "; " ++ key ++ ": " ++ value) =
      textSkeleton backend (indent (level + 1) ++ "; " ++ key ++ ": " ++ value') := by
  have hlist : ∀ value : String, (indent (level + 1) ++ "; " ++ key ++ ": " ++ value).toList =
      (indent (level + 1)).toList ++ ';' :: ((' ' :: key.toList) ++ ':' :: (' ' :: value.toList)) := by
    intro value
    simp [String.toList_append]
  have hline : ∀ {value : String}, OneLine value →
      OneLine (indent (level + 1) ++ "; " ++ key ++ ": " ++ value) := fun h =>
    ((((oneLine_indent _).append (by decide)).append hkey).append (by decide)).append h
  refine textSkeleton_eq (hline h) (hline h') ?_
  rw [cut_eq_cutLedger hbackend, cut_eq_cutLedger hbackend, hlist, hlist, cutLedger_comment,
    cutLedger_comment]

/-- What is left of a line that ends in a string. -/
theorem cut_quoted {before : String} (h : '"' ∉ before.toList) (text after : String) :
    cut .beancount (before ++ quoteString text ++ after).toList =
      before.toList ++ ('"' :: '"' :: eraseLiterals false after.toList) := by
  rw [cut, String.toList_append, String.toList_append, toList_quoteString, List.append_assoc,
    eraseLiterals_append h, List.cons_append, List.append_assoc, List.singleton_append,
    eraseLiterals_quote]

theorem textSkeleton_quoted {before : String} (hbefore : OneLine before)
    (hquote : '"' ∉ before.toList) {text text' : String} (h : OneLine text) (h' : OneLine text') :
    textSkeleton .beancount (before ++ quoteString text) =
      textSkeleton .beancount (before ++ quoteString text') := by
  have hcut := cut_quoted hquote text ""
  have hcut' := cut_quoted hquote text' ""
  rw [String.append_empty] at hcut hcut'
  exact textSkeleton_eq (hbefore.append (oneLine_quoteString h))
    (hbefore.append (oneLine_quoteString h')) (hcut.trans hcut'.symm)

theorem not_mem_indent {c : Char} (hc : c ≠ ' ') (level : Nat) : c ∉ (indent level).toList := by
  intro h
  rw [indent, String.toList_ofList] at h
  exact hc (List.eq_of_mem_replicate h)

/-- **Metadata values are no part of the skeleton.** -/
theorem map_metaLines_blank {details : List (String × MetaValue)} (h : PlainDetails details)
    (backend : Backend) (level : Nat) :
    (metaLines backend (level + 1) details).map (textSkeleton backend) =
      (metaLines backend (level + 1) (blankDetails details)).map (textSkeleton backend) := by
  unfold metaLines blankDetails
  rw [List.map_map, List.map_map, List.map_map]
  refine List.map_congr_left fun ⟨key, value⟩ hkv => ?_
  obtain ⟨hkey, hquote, hvalue⟩ := h _ hkv
  simp only [Function.comp_apply, MetaValue.render]
  have hnone : OneLine "" := by decide
  have hcolon : OneLine ": " := by decide
  have hledger : Backend.ledger ≠ .beancount := nofun
  have hhledger : Backend.hledger ≠ .beancount := nofun
  cases backend with
  | beancount =>
    refine textSkeleton_quoted (((oneLine_indent _).append hkey).append hcolon) ?_ hvalue hnone
    simp only [String.toList_append, List.mem_append, not_or]
    exact ⟨⟨not_mem_indent (by decide) _, hquote⟩, by decide⟩
  | ledger => exact textSkeleton_tag hledger hkey hvalue hnone
  | hledger => exact textSkeleton_tag hhledger hkey hvalue hnone

/-- A string of a header, if it is not empty. -/
theorem eraseLiterals_optional (text : String) (rest : List Char) :
    eraseLiterals false ((if text = "" then "" else " " ++ quoteString text).toList ++ rest) =
      (if text = "" then [] else [' ', '"', '"']) ++ eraseLiterals false rest := by
  split_ifs with hempty
  · rfl
  · have hblank : '"' ∉ (" " : String).toList := by decide
    rw [String.toList_append, toList_quoteString, List.append_assoc, eraseLiterals_append hblank,
      List.cons_append, List.append_assoc, List.singleton_append, eraseLiterals_quote]
    rfl

theorem oneLine_optional {text : String} (h : OneLine text) :
    OneLine (if text = "" then "" else " " ++ quoteString text) := by
  have hblank : OneLine " " := by decide
  split_ifs
  · decide
  · exact hblank.append (oneLine_quoteString h)

/-- The first line of an entry in Beancount. -/
theorem textSkeleton_header {date : Int} {payee payee' note note' : String}
    (hpayee : OneLine payee) (hpayee' : OneLine payee') (hnote : OneLine note)
    (hnote' : OneLine note') (hp : payee' = "" ↔ payee = "") (hn : note' = "" ↔ note = "") :
    textSkeleton .beancount (isoformat date ++ " *" ++
        (if payee = "" then "" else " " ++ quoteString payee) ++
          if note = "" then "" else " " ++ quoteString note) =
      textSkeleton .beancount (isoformat date ++ " *" ++
        (if payee' = "" then "" else " " ++ quoteString payee') ++
          if note' = "" then "" else " " ++ quoteString note') := by
  have hstar : OneLine " *" := by decide
  have hstart : OneLine (isoformat date ++ " *") := (oneLine_isoformat date).append hstar
  have hquote : '"' ∉ (isoformat date ++ " *").toList := by
    rw [String.toList_append, List.mem_append, not_or]
    refine ⟨fun h => absurd (mem_isoformat h) (by decide), by decide⟩
  have hcut : ∀ payee note : String, cut .beancount (isoformat date ++ " *" ++
      (if payee = "" then "" else " " ++ quoteString payee) ++
        if note = "" then "" else " " ++ quoteString note).toList =
      (isoformat date ++ " *").toList ++ ((if payee = "" then [] else [' ', '"', '"']) ++
        ((if note = "" then [] else [' ', '"', '"']) ++ [])) := by
    intro payee note
    have hend := eraseLiterals_optional note []
    rw [List.append_nil] at hend
    rw [cut, String.toList_append, String.toList_append, List.append_assoc,
      eraseLiterals_append hquote, eraseLiterals_optional, hend]
    rfl
  refine textSkeleton_eq ((hstart.append (oneLine_optional hpayee)).append (oneLine_optional hnote))
    ((hstart.append (oneLine_optional hpayee')).append (oneLine_optional hnote')) ?_
  rw [hcut, hcut]
  simp only [hp, hn]

/-- The first line of an entry in the ledger family. -/
theorem textSkeleton_ledgerHeader (hbackend : backend ≠ .beancount) {date : Int}
    {payee payee' comment : String} (h : ∀ c ∈ payee.toList, isUnsafeText c = false)
    (h' : ∀ c ∈ payee'.toList, isUnsafeText c = false) (hcomment : OneLine comment) :
    textSkeleton backend (isoformat date ++ " *" ++ payee ++ comment) =
      textSkeleton backend (isoformat date ++ " *" ++ payee' ++ comment) := by
  have hstar : OneLine " *" := by decide
  have hstart : OneLine (isoformat date ++ " *") := (oneLine_isoformat date).append hstar
  have hlist : ∀ payee : String, (isoformat date ++ " *" ++ payee ++ comment).toList =
      (isoformat date).toList ++ ' ' :: '*' :: (payee.toList ++ comment.toList) := by
    intro payee
    simp [String.toList_append]
  have hsemicolon : ∀ {payee : String}, (∀ c ∈ payee.toList, isUnsafeText c = false) →
      ';' ∉ payee.toList := fun h hmem => absurd (h _ hmem) (by decide)
  refine textSkeleton_eq ((hstart.append (oneLine_of_safe h)).append hcomment)
    ((hstart.append (oneLine_of_safe h')).append hcomment) ?_
  rw [cut_eq_cutLedger hbackend, cut_eq_cutLedger hbackend, hlist, hlist,
    cutLedger_header (hsemicolon h), cutLedger_header (hsemicolon h')]

/-- The ids of the transactions of an entry. -/
theorem oneLine_ids (ids : List Nat) : OneLine (String.intercalate ", " (ids.map toString)) := by
  have hcomma : OneLine ", " := by decide
  refine oneLine_intercalate hcomma fun text htext => ?_
  obtain ⟨id, -, rfl⟩ := List.mem_map.mp htext
  exact oneLine_toString id

/-- The payee as the ledger family writes it. -/
theorem safe_optional {text : String} (h : ∀ c ∈ text.toList, isUnsafeText c = false) :
    ∀ c ∈ (if text = "" then "" else " " ++ text).toList, isUnsafeText c = false := by
  split_ifs
  · exact fun c hc => absurd hc List.not_mem_nil
  · intro c hc
    rw [String.toList_append] at hc
    rcases List.mem_append.mp hc with hc | hc
    · rw [show c = ' ' by simpa using hc]
      decide
    · exact h c hc

/-- Lines that are cut down alike make texts that are. -/
theorem textSkeleton_journalText {lines lines' : List String}
    (h : lines.map (textSkeleton backend) = lines'.map (textSkeleton backend)) :
    textSkeleton backend (journalText lines) = textSkeleton backend (journalText lines') := by
  have hjoin : textSkeleton backend (String.intercalate "\n" lines) =
      textSkeleton backend (String.intercalate "\n" lines') := by
    have hlist : ∀ lines : List String, (String.intercalate "\n" lines).toList =
        ['\n'].intercalate (lines.map String.toList) := fun lines => String.toList_intercalate
    rw [textSkeleton, textSkeleton, hlist, hlist]
    refine skeleton_join ?_
    rw [List.map_map, List.map_map]
    exact h
  have hempty : ∀ text text' : String, textSkeleton backend text = textSkeleton backend text' →
      text = "" → text' = "" := by
    rintro text text' hsame rfl
    have hnil : textSkeleton backend "" = [[]] := by
      cases backend with
      | beancount => rfl
      | ledger => rfl
      | hledger => rfl
    have hlist := eq_nil_of_skeleton (eq_nil_of_cut backend) (hsame.symm.trans hnil)
    exact String.toList_inj.mp hlist
  have hend : ∀ text : String, textSkeleton backend (text ++ "\n") =
      textSkeleton backend text ++ [cut backend []] := by
    intro text
    rw [textSkeleton, String.toList_append]
    exact skeleton_concat _
  unfold journalText
  dsimp only
  by_cases hnone : String.intercalate "\n" lines = ""
  · rw [if_pos hnone, if_pos (hempty _ _ hjoin hnone)]
  · rw [if_neg hnone, if_neg (mt (hempty _ _ hjoin.symm) hnone), hend, hend, hjoin]

/-- The text has each line, and the end of the last. -/
theorem length_textSkeleton_journalText {lines : List String} (hlines : 2 ≤ lines.length)
    (h : ∀ line ∈ lines, OneLine line) :
    (textSkeleton backend (journalText lines)).length = lines.length + 1 := by
  have hne : lines.map String.toList ≠ [] := by
    rw [Ne, List.map_eq_nil_iff]
    rintro rfl
    exact absurd hlines (by decide)
  have hline : ∀ line ∈ lines.map String.toList, '\n' ∉ line := by
    intro line hline
    obtain ⟨text, htext, rfl⟩ := List.mem_map.mp hline
    exact h text htext
  have hlist : (String.intercalate "\n" lines).toList =
      ['\n'].intercalate (lines.map String.toList) := String.toList_intercalate
  have hsplit : (String.intercalate "\n" lines).toList.splitOn '\n' =
      lines.map String.toList := by
    rw [hlist, List.splitOn_intercalate _ hline hne]
  have htext : String.intercalate "\n" lines ≠ "" := by
    intro hempty
    rw [hempty, String.toList_empty, List.splitOn_nil] at hsplit
    have hlength := congrArg List.length hsplit
    rw [List.length_map, List.length_singleton] at hlength
    omega
  unfold journalText
  dsimp only
  rw [if_neg htext, textSkeleton, String.toList_append]
  have hend : skeleton '\n' (cut backend) ((String.intercalate "\n" lines).toList ++ ['\n']) =
      skeleton '\n' (cut backend) (String.intercalate "\n" lines).toList ++ [cut backend []] :=
    skeleton_concat _
  refine (congrArg List.length hend).trans ?_
  rw [List.length_append, skeleton, hsplit, List.length_map, List.length_map]
  rfl

end

end FinancialDashboard.Paisa
