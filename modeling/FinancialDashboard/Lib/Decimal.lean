import FinancialDashboard.Lib.PyInt
import FinancialDashboard.Lib.Rounding

/-!
# Decimals as they are written

A finite decimal has a sign, digits and an exponent, so that `1.0`, `1` and `-0` are told
apart by their texts; `value` is what the arithmetic sees.  `normalText` is
`str(d.normalize())`: the digits are rounded to those the context keeps, and the zeros at the
end are dropped.  `ofText` is `Decimal(s)`: blanks around a text do not count, nor underscores
in it, and its digits are those of any script.

`Column` is a numeric column of a database: a number comes back as the column holds it, and
what came back is held as it is.

* `roundSig_nonneg`: rounding keeps the sign.
* `Column.holds_iff`: the numbers a column holds.
-/

namespace Rounding

/-- A finite decimal, as it is written. -/
structure Decimal where
  negative : Bool
  digits : ℕ
  exponent : ℤ
  deriving DecidableEq, Repr

namespace Decimal

def value (d : Decimal) : ℚ :=
  (if d.negative then -1 else 1) * d.digits * (10 : ℚ) ^ d.exponent

/-- The zeros at the end of the digits, dropped. -/
def dropZeros : ℕ → ℕ → ℤ → ℕ × ℤ
  | 0, digits, exponent => (digits, exponent)
  | fuel + 1, digits, exponent =>
    if digits % 10 = 0 then dropZeros fuel (digits / 10) (exponent + 1) else (digits, exponent)

/-- `d.normalize()`, in a context that keeps so many digits. -/
def normalize (precision : ℕ) (d : Decimal) : Decimal :=
  if d.digits = 0 then ⟨d.negative, 0, 0⟩
  else
    let excess := (toString d.digits).length - precision
    let kept := (roundEven (d.digits / (10 ^ excess : ℕ))).toNat
    let (digits, exponent) := dropZeros precision kept (d.exponent + excess)
    ⟨d.negative, digits, exponent⟩

/-- `str(d)`. -/
def text (d : Decimal) : String :=
  let digits := toString d.digits
  let left := d.exponent + digits.length
  let point := if d.exponent ≤ 0 ∧ -6 < left then left else 1
  let number :=
    if point ≤ 0 then "0." ++ String.ofList (List.replicate (-point).toNat '0') ++ digits
    else if digits.length ≤ point then
      digits ++ String.ofList (List.replicate (point - digits.length).toNat '0')
    else
      String.ofList (digits.toList.take point.toNat) ++ "." ++
        String.ofList (digits.toList.drop point.toNat)
  let power :=
    if left = point then ""
    else (if left - point < 0 then "E-" else "E+") ++ toString (left - point).natAbs
  (if d.negative then "-" else "") ++ number ++ power

def normalText (precision : ℕ) (d : Decimal) : String := (d.normalize precision).text

/-! ### Reading a decimal -/

section

open PyText

variable [UnicodeTables] [DecimalTables]

/-- A digit of any script as a plain one. -/
def plainDigit (c : Char) : Char :=
  if c.val < 128 then c
  else (DecimalTables.decimal c).elim c fun digit => Char.ofNat ('0'.toNat + digit)

/-- What plain digits spell; there has to be one. -/
def spelled (cs : List Char) : Option ℕ :=
  if cs ≠ [] ∧ cs.all Char.isDigit then some (Nat.ofDigitChars 10 cs 0) else none

/-- The digits, and how many of them stand behind the point. -/
def coefficient (cs : List Char) : Option (ℕ × ℕ) :=
  let whole := cs.takeWhile (· ≠ '.')
  let places := (cs.drop whole.length).tail
  (spelled (whole ++ places)).map (·, places.length)

/-- What follows the digits: nothing, or a letter and a whole number. -/
def power : List Char → Option ℤ
  | [] => some 0
  | _ :: '-' :: digits => (spelled digits).map fun n => -n
  | _ :: '+' :: digits => (spelled digits).map fun n => n
  | _ :: digits => (spelled digits).map fun n => n

/-- The exponents `MAX_EMAX` and `MIN_ETINY` are not passed. -/
def isHeld (d : Decimal) : Bool :=
  d.exponent + (toString d.digits).length ≤ 1000000000000000000 &&
    -1999999999999999997 ≤ d.exponent

/-- `Decimal(s)`, where it is a finite number. -/
def ofText (s : String) : Option Decimal :=
  let cs := ((strip s).toList.filter (· ≠ '_')).map plainDigit
  let unsigned := if cs.head? = some '-' ∨ cs.head? = some '+' then cs.tail else cs
  let number := unsigned.takeWhile fun c => c ≠ 'e' && c ≠ 'E'
  match coefficient number, power (unsigned.drop number.length) with
  | some (digits, places), some exponent =>
    let d : Decimal := ⟨cs.head? = some '-', digits, exponent - places⟩
    if d.isHeld then some d else none
  | _, _ => none

end

end Decimal

/-! ### Signs -/

theorem roundEven_nonneg {x : ℚ} (h : 0 ≤ x) : 0 ≤ roundEven x := by
  have hnear := (isNearest_roundEven x).le
  by_contra hneg
  have hle : (roundEven x : ℚ) ≤ -1 := by
    have hle : roundEven x ≤ -1 := by omega
    exact_mod_cast hle
  rw [abs_of_nonneg (by linarith)] at hnear
  linarith

/-- **Rounding keeps the sign.** -/
theorem roundSig_nonneg {x : ℚ} (digits : ℕ) (h : 0 ≤ x) : 0 ≤ roundSig digits x := by
  unfold roundSig
  split_ifs
  · exact le_refl _
  · have hscale : (0 : ℚ) ≤ 10 ^ (Int.log 10 |x| + 1 - digits) :=
      zpow_nonneg (by norm_num) _
    exact mul_nonneg (by exact_mod_cast roundEven_nonneg (div_nonneg h hscale)) hscale

/-! ### Columns -/

/-- A numeric column: what is read back of what is stored. -/
structure Column where
  stored : ℚ → ℚ
  stored_stored (x : ℚ) : stored (stored x) = stored x

/-- The column gives the number back. -/
def Column.Holds (column : Column) (x : ℚ) : Prop := column.stored x = x

instance (column : Column) : DecidablePred column.Holds :=
  fun _ => inferInstanceAs (Decidable (_ = _))

/-- **The numbers a column holds** are those that come back. -/
theorem Column.holds_iff {column : Column} {x : ℚ} : column.Holds x ↔ ∃ y, column.stored y = x :=
  ⟨fun h => ⟨x, h⟩, fun ⟨y, hy⟩ => hy ▸ column.stored_stored y⟩

/-- Rounded to so many decimal places. -/
def fixedPoint (places : ℕ) : Column where
  stored x := roundEven (x * 10 ^ places) / 10 ^ places
  stored_stored x := by
    rw [div_mul_cancel₀ _ (pow_ne_zero _ (by decide)), roundEven_intCast]

end Rounding
