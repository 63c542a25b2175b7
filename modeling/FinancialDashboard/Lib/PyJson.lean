import FinancialDashboard.Lib.Calendar
import Mathlib.Data.Rat.Defs

/-!
# Python values as JSON

A tree of what `json.dumps` can write, and the texts that dates, times and decimals become
before that.  A text says which value it is of.

* `isoformat_inj`, `isoTime_inj`: the ISO text of a date, and of a time of day.
* `plainDecimals`: decimals with two places, where the value is whole.
-/

namespace PyJson

open PyTime

inductive Json
  | null
  | bool (b : Bool)
  | int (n : Int)
  | float (x : ℚ)
  | str (s : String)
  | list (items : List Json)
  | dict (fields : List (String × Json))

namespace Json

/-- A value that may be `None`. -/
def optional {α : Type} (f : α → Json) : Option α → Json
  | none => null
  | some a => f a

end Json

/-! ### Dates and times -/

/-- Digits end where something else begins, and they do not say where. -/
theorem zeroPad_append_inj {width m n : Nat} {c d : Char} {rest more : String}
    (hc : ¬c.isDigit = true) (hd : ¬d.isDigit = true)
    (h : zeroPad width m ++ (String.singleton c ++ rest) =
      zeroPad width n ++ (String.singleton d ++ more)) : m = n ∧ c = d ∧ rest = more := by
  have hlist := congrArg String.toList h
  simp only [String.toList_append, String.toList_singleton, List.singleton_append] at hlist
  have htake := congrArg (·.takeWhile Char.isDigit) hlist
  have hdrop := congrArg (·.dropWhile Char.isDigit) hlist
  simp only [List.takeWhile_append_of_pos fun _ => isDigit_of_mem_zeroPad,
    List.takeWhile_cons_of_neg hc, List.takeWhile_cons_of_neg hd, List.append_nil] at htake
  simp only [List.dropWhile_append_of_pos fun _ => isDigit_of_mem_zeroPad,
    List.dropWhile_cons_of_neg hc, List.dropWhile_cons_of_neg hd] at hdrop
  obtain ⟨hchar, hrest⟩ := List.cons.inj hdrop
  exact ⟨zeroPad_injective (String.toList_inj.mp htake), hchar, String.toList_inj.mp hrest⟩

/-- **The ISO text of a date is of one date.** -/
theorem isoformat_inj {m n : Int} (hn : IsDate n) (h : isoformat m = isoformat n) : m = n := by
  simp only [isoformat, String.append_assoc] at h
  obtain ⟨hsame, -, hrest⟩ := zeroPad_append_inj (c := '-') (d := '-') (by decide) (by decide) h
  obtain ⟨hsame', -, hlast⟩ :=
    zeroPad_append_inj (c := '-') (d := '-') (by decide) (by decide) hrest
  have hsame'' := zeroPad_injective hlast
  have hyear := civil_year m
  have hyear' := civil_year n
  have hmonth := civil_month m
  have hmonth' := civil_month n
  rw [isDate_iff] at hn
  have hmonths : monthOf m = monthOf n := by omega
  have hdayOf := civil_day m
  have hdayOf' := civil_day n
  rw [hmonths] at hdayOf
  omega

/-- `time.isoformat()`. -/
def isoTime (t : TimeOfDay) : String :=
  let second := t.micros / 1000000
  let rest := t.micros % 1000000
  zeroPad 2 (second / 3600) ++ ":" ++ zeroPad 2 (second / 60 % 60) ++ ":" ++
    (zeroPad 2 (second % 60) ++ if rest = 0 then "" else "." ++ zeroPad 6 rest)

/-- The time of day of a point. -/
def timeOf (point : Int) : TimeOfDay where
  micros := (point % days 1).toNat
  lt := by
    have hpos : (0 : Int) < days 1 := by decide
    have hlt := Int.emod_lt_of_pos point hpos
    have hnonneg := Int.emod_nonneg point hpos.ne'
    omega

/-- `datetime.isoformat()`. -/
def isoPoint (point : Int) : String := isoformat (dateOf point) ++ "T" ++ isoTime (timeOf point)

/-- `format(d, "f")`: a text that `Decimal` reads back. -/
class DecimalText where
  text : ℚ → String
  text_inj {x y : ℚ} : text x = text y → x = y

/-- A whole number that is not negative with two places; anything else as a fraction. -/
def plainText (x : ℚ) : String :=
  if x.den = 1 ∧ 0 ≤ x.num then zeroPad 0 x.num.natAbs ++ (String.singleton '.' ++ "00")
  else
    zeroPad 0 x.num.natAbs ++ (String.singleton '/' ++
      (zeroPad 0 x.den ++ (String.singleton (if 0 ≤ x.num then '+' else '-') ++ "")))

theorem plainText_inj {x y : ℚ} (h : plainText x = plainText y) : x = y := by
  have eq_of {x y : ℚ} (habs : x.num.natAbs = y.num.natAbs) (hden : x.den = y.den)
      (hsign : 0 ≤ x.num ↔ 0 ≤ y.num) : x = y := Rat.ext (by omega) hden
  have hpoint : ¬('.' : Char).isDigit = true := by decide
  have hslash : ¬('/' : Char).isDigit = true := by decide
  have hsign (n : Int) : ¬(if 0 ≤ n then '+' else '-').isDigit = true := by
    split_ifs <;> decide
  unfold plainText at h
  by_cases hx : x.den = 1 ∧ 0 ≤ x.num
  · by_cases hy : y.den = 1 ∧ 0 ≤ y.num
    · rw [if_pos hx, if_pos hy] at h
      exact eq_of (zeroPad_append_inj hpoint hpoint h).1 (hx.1.trans hy.1.symm)
        (iff_of_true hx.2 hy.2)
    · rw [if_pos hx, if_neg hy] at h
      exact absurd (zeroPad_append_inj hpoint hslash h).2.1 (by decide)
  · by_cases hy : y.den = 1 ∧ 0 ≤ y.num
    · rw [if_neg hx, if_pos hy] at h
      exact absurd (zeroPad_append_inj hslash hpoint h).2.1 (by decide)
    · rw [if_neg hx, if_neg hy] at h
      obtain ⟨habs, -, h⟩ := zeroPad_append_inj hslash hslash h
      obtain ⟨hden, hsame, -⟩ := zeroPad_append_inj (hsign x.num) (hsign y.num) h
      refine eq_of habs hden ?_
      split_ifs at hsame with hx' hy' hy'
      · exact iff_of_true hx' hy'
      · exact absurd hsame (by decide)
      · exact absurd hsame (by decide)
      · exact iff_of_false hx' hy'

/-- The texts of whole amounts. -/
@[reducible] def plainDecimals : DecimalText where
  text := plainText
  text_inj := plainText_inj

end PyJson
