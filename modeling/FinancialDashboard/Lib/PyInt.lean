import FinancialDashboard.Lib.StableCase
import FinancialDashboard.Lib.Numerals

/-!
# `int` of a text

`int(s)`: blanks around it do not count, nor a sign in front; the digits are those of any script,
single underscores may stand between them, and there is a limit on their number.  What
`unicodedata.decimal` reads is a parameter.

* `pyInt_pyStr`: the text of a number is read back.
-/

namespace PyText

open PyTime

/-- `unicodedata.decimal` -/
class DecimalTables [UnicodeTables] where
  decimal : Char → Option Nat
  decimal_ascii : ∀ c : Char, c.isDigit = true → decimal c = some (c.toNat - '0'.toNat)
  isSpace_minus : UnicodeTables.isSpace '-' = false

@[reducible] def asciiDecimals : @DecimalTables asciiTables :=
  let _ := asciiTables
  { decimal := fun c => if c.isDigit then some (c.toNat - '0'.toNat) else none
    decimal_ascii := fun _ h => if_pos h
    isSpace_minus := rfl }

/-- `sys.get_int_max_str_digits()` -/
def maxStrDigits : Nat := 4300

section

variable [UnicodeTables] [DecimalTables]

/-- What the digits spell, where each underscore stands between two of them. -/
def readDigits (cs : List Char) : Option Nat :=
  let groups := cs.splitOn '_'
  if groups.any (·.isEmpty) then none
  else
    (groups.flatten.mapM DecimalTables.decimal).bind fun digits =>
      if maxStrDigits < digits.length then none
      else some (digits.foldl (fun n d => 10 * n + d) 0)

/-- `int(s)`; `none` where it raises. -/
def pyInt (s : String) : Option Int :=
  match (strip s).toList with
  | '-' :: cs => (readDigits cs).map fun n : Nat => -(n : Int)
  | '+' :: cs => (readDigits cs).map fun n : Nat => (n : Int)
  | cs => (readDigits cs).map fun n : Nat => (n : Int)

/-! ### Digits are read back -/

theorem mapM_decimal : ∀ cs : List Char, (∀ c ∈ cs, c.isDigit = true) →
    cs.mapM DecimalTables.decimal = some (cs.map fun c => c.toNat - '0'.toNat) := by
  intro cs
  induction cs with
  | nil => intro _; rfl
  | cons c cs ih =>
    intro h
    rw [List.mapM_cons, DecimalTables.decimal_ascii c (h c List.mem_cons_self),
      ih fun d hd => h d (List.mem_cons_of_mem c hd)]
    rfl

omit [UnicodeTables] [DecimalTables] in
theorem foldl_digits : ∀ (cs : List Char) (n : Nat),
    (cs.map fun c => c.toNat - '0'.toNat).foldl (fun n d => 10 * n + d) n =
      Nat.ofDigitChars 10 cs n := by
  intro cs
  induction cs with
  | nil => intro n; rfl
  | cons c cs ih =>
    intro n
    rw [List.map_cons, List.foldl_cons, ih, Nat.ofDigitChars_cons]

/-- Plain digits, and not too many, spell what they spell. -/
theorem readDigits_of_digits {cs : List Char} (hne : cs ≠ []) (h : ∀ c ∈ cs, c.isDigit = true)
    (hlength : cs.length ≤ maxStrDigits) :
    readDigits cs = some (Nat.ofDigitChars 10 cs 0) := by
  have hsplit : cs.splitOn '_' = [cs] := by
    refine List.splitOnP_eq_singleton fun c hc => beq_eq_false_iff_ne.mpr ?_
    rintro rfl
    exact absurd (h _ hc) (by decide)
  unfold readDigits
  dsimp only
  rw [hsplit, if_neg (by simpa using hne), List.flatten_singleton, mapM_decimal cs h,
    Option.bind_some, List.length_map, if_neg (not_lt.mpr hlength), foldl_digits]

theorem readDigits_toString {n : Nat} (h : (toString n).length ≤ maxStrDigits) :
    readDigits (toString n).toList = some n := by
  have hne : (toString n).toList ≠ [] := by
    rw [Nat.toString_eq_repr, Nat.toList_repr]
    exact Nat.toDigits_ne_nil
  have hread := readDigits_of_digits hne (fun c hc => isDigit_of_mem_toString hc)
    (by rwa [String.length_toList])
  rwa [ofDigitChars_toString] at hread

omit [DecimalTables] in
/-- No blank at the ends of a text that begins with a sign or a digit and ends with a digit. -/
theorem strip_numeral [StableTables] {s : String} {front : List Char} {n : Nat}
    (hs : s.toList = front ++ (toString n).toList)
    (hfront : ∀ c ∈ front, UnicodeTables.isSpace c = false) : strip s = s := by
  have hspace : ∀ c ∈ s.toList, UnicodeTables.isSpace c = false := by
    intro c hc
    rw [hs] at hc
    rcases List.mem_append.mp hc with hc | hc
    · exact hfront c hc
    · exact StableTables.alnum_ascii c (by
        rw [Char.isAlphanum, isDigit_of_mem_toString hc, Bool.or_true])
  have htrimmed : Trimmed s.toList :=
    ⟨fun c hc => hspace c (List.mem_of_mem_head? hc),
      fun c hc => hspace c (List.mem_of_getLast? hc)⟩
  have heq := htrimmed.strip_eq
  rwa [String.ofList_toList] at heq

/-- `str(n)`; `none` where it has too many digits. -/
def pyStr (n : Int) : Option String :=
  if maxStrDigits < (toString n.natAbs).length then none
  else some (if 0 ≤ n then toString n.natAbs else "-" ++ toString n.natAbs)

theorem pyInt_toString [StableTables] {n : Nat} (h : (toString n).length ≤ maxStrDigits) :
    pyInt (toString n) = some (n : Int) := by
  have hdigits : ∀ c ∈ (toString n).toList, c.isDigit = true := fun c hc =>
    isDigit_of_mem_toString hc
  unfold pyInt
  have hlist : (toString n).toList = [] ++ (toString n).toList := rfl
  rw [strip_numeral hlist fun c hc => by cases hc]
  split
  · rename_i cs hcs
    exact absurd (hdigits '-' (by rw [hcs]; exact List.mem_cons_self)) (by decide)
  · rename_i cs hcs
    exact absurd (hdigits '+' (by rw [hcs]; exact List.mem_cons_self)) (by decide)
  · rw [readDigits_toString h]
    rfl

/-- **The text of a number is read back.** -/
theorem pyInt_pyStr [StableTables] {n : Int} {s : String} (h : pyStr n = some s) :
    pyInt s = some n := by
  unfold pyStr at h
  split_ifs at h with hlong hsign
  · obtain rfl := Option.some.inj h
    rw [pyInt_toString (not_lt.mp hlong), Int.natAbs_of_nonneg hsign]
  · obtain rfl := Option.some.inj h
    have hlist : ("-" ++ toString n.natAbs).toList = '-' :: (toString n.natAbs).toList := by
      rw [String.toList_append]
      rfl
    unfold pyInt
    rw [strip_numeral (show _ = ['-'] ++ _ from hlist)
      (by simpa using DecimalTables.isSpace_minus), hlist]
    simp only
    rw [readDigits_toString (not_lt.mp hlong)]
    simp only [Option.map_some, Option.some.injEq]
    omega

end

end PyText
