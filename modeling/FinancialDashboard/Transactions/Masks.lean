import FinancialDashboard.Lib.PyText

/-!
# Card and account masks

`core/masks.py`: a mask is digits, wildcards and separators, and two masks may
denote one account when they agree from the right over their overlap.  A string
with anything else in it is no mask, and normalizes to `""`.

* `maskMatches_comm`: matching does not depend on which mask is the pattern.
-/

namespace FinancialDashboard.Transactions

open PyText

def wildcard : Char := 'X'

def wildcardChars : List Char := ['X', 'x', '*', '#']

variable [UnicodeTables]

/-- Cosmetic grouping: any whitespace, and the group dash. -/
def isSeparator (ch : Char) : Bool := UnicodeTables.isSpace ch || ch = '-'

omit [UnicodeTables] in
def isMaskDigit (ch : Char) : Bool := '0' ≤ ch && ch ≤ '9'

/-- The loop of `normalize_mask`; `none` for a character a mask cannot have. -/
def normalizeChars : List Char → Option (List Char)
  | [] => some []
  | ch :: rest =>
    if isMaskDigit ch then (normalizeChars rest).map (ch :: ·)
    else if ch ∈ wildcardChars then (normalizeChars rest).map (wildcard :: ·)
    else if isSeparator ch then normalizeChars rest
    else none

def normalizeMask (s : Option String) : String :=
  match s with
  | none => ""
  | some s => String.ofList ((normalizeChars s.toList).getD [])

omit [UnicodeTables] in
/-- Two positions agree when they are equal or one is hidden. -/
def positionMatches (p s : Char) : Bool := p = wildcard || s = wildcard || p = s

omit [UnicodeTables] in
/-- Right-aligned comparison over the overlap; an empty mask matches nothing. -/
def maskMatches (pattern stored : String) : Bool :=
  pattern ≠ "" && stored ≠ "" &&
    (pattern.toList.reverse.zip stored.toList.reverse).all fun (p, s) => positionMatches p s

omit [UnicodeTables] in
def maskDigits (s : Option String) : String :=
  String.ofList ((s.getD "").toList.filter isMaskDigit)

omit [UnicodeTables] in
/-- `mask_last4`; `short` lets fewer than four digits through. -/
def maskLast4 (s : Option String) (short : Bool) : Option String :=
  let digits := (maskDigits s).toList
  if 4 ≤ digits.length then some (String.ofList (digits.drop (digits.length - 4)))
  else if short && digits ≠ [] then some (String.ofList digits)
  else none

/-- Both masks are readable and cannot denote one account. -/
def masksConflict (a b : Option String) : Prop :=
  normalizeMask a ≠ "" ∧ normalizeMask b ≠ "" ∧
    maskMatches (normalizeMask a) (normalizeMask b) = false

instance (a b : Option String) : Decidable (masksConflict a b) :=
  inferInstanceAs (Decidable (_ ∧ _ ∧ _))

omit [UnicodeTables] in
theorem positionMatches_comm (p s : Char) : positionMatches p s = positionMatches s p := by
  unfold positionMatches
  rw [Bool.or_comm (decide (p = wildcard)), decide_eq_decide.mpr (eq_comm (a := p) (b := s))]

omit [UnicodeTables] in
theorem all_zip_comm : ∀ a b : List Char,
    ((a.zip b).all fun (p, s) => positionMatches p s) =
      (b.zip a).all fun (p, s) => positionMatches p s
  | [], b => by simp
  | _ :: _, [] => rfl
  | p :: a, s :: b => by
    simp only [List.zip_cons_cons, List.all_cons]
    rw [positionMatches_comm, all_zip_comm a b]

omit [UnicodeTables] in
/-- **Matching is symmetric.** -/
theorem maskMatches_comm (a b : String) : maskMatches a b = maskMatches b a := by
  unfold maskMatches
  rw [all_zip_comm, Bool.and_comm (decide (a ≠ ""))]

end FinancialDashboard.Transactions
