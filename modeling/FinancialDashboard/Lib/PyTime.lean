import Mathlib.Data.Int.Order.Basic

/-!
# Dates and times as Python sees them

An instant or a point in time is a number of microseconds, and so is a timedelta;
a date is its day number, and a time of day is a number of microseconds below one
day.  So `datetime.combine` and `.date()` are arithmetic.  `isoformat` takes the day
number that `date.toordinal()` gives.

* `within_iff`, `within_mono`: a window around a point.
* `dateOf_mono`, `combine_dateOf_clockOf`: the date and the clock of a point.
-/

namespace PyTime

def seconds (n : Int) : Int := n * 1000000
def minutes (n : Int) : Int := seconds (60 * n)
def hours (n : Int) : Int := minutes (60 * n)
def days (n : Int) : Int := hours (24 * n)

structure TimeOfDay where
  micros : Nat
  lt : (micros : Int) < days 1
  deriving DecidableEq, Repr

namespace TimeOfDay

def hour (t : TimeOfDay) : Nat := t.micros / 3600000000

theorem ext_micros {t u : TimeOfDay} (h : t.micros = u.micros) : t = u := by
  cases t
  cases u
  obtain rfl := h
  rfl

/-- `time.replace(hour=hour)`. -/
def replaceHour (t : TimeOfDay) (hour : Fin 24) : TimeOfDay where
  micros := hour * 3600000000 + t.micros % 3600000000
  lt := by
    unfold days hours minutes seconds
    omega

/-- The same clock in the other half of the day. -/
def otherHalf (t : TimeOfDay) : TimeOfDay where
  micros := (t.micros + 43200000000) % 86400000000
  lt := by
    unfold days hours minutes seconds
    omega

end TimeOfDay

/-- `datetime.combine`. -/
def combine (date : Int) (time : TimeOfDay) : Int := days date + time.micros

/-- `.date()`. -/
def dateOf (point : Int) : Int := point / days 1

/-- `.time()`. -/
def clockOf (point : Int) : TimeOfDay where
  micros := (point % days 1).toNat
  lt := by
    unfold days hours minutes seconds
    omega

theorem combine_dateOf_clockOf (point : Int) : combine (dateOf point) (clockOf point) = point := by
  unfold combine dateOf clockOf
  dsimp only
  unfold days hours minutes seconds
  omega

/-- `centre - n minutes <= point <= centre + n minutes`. -/
def within (centre n point : Int) : Bool :=
  centre - minutes n ≤ point && point ≤ centre + minutes n

theorem within_iff {centre n point : Int} : within centre n point = true ↔
    centre - minutes n ≤ point ∧ point ≤ centre + minutes n := by simp [within]

theorem within_mono {a m n b : Int} (hmn : m ≤ n) (h : within a m b = true) :
    within a n b = true := by
  rw [within_iff] at h ⊢
  have hmin : minutes m ≤ minutes n := by
    unfold minutes seconds
    omega
  omega

theorem dateOf_mono {a b : Int} (h : a ≤ b) : dateOf a ≤ dateOf b :=
  Int.ediv_le_ediv (by decide) h

/-! ### The calendar -/

structure CivilDate where
  year : Int
  month : Nat
  day : Nat
  deriving DecidableEq, Repr

/-- The proleptic Gregorian date of an ordinal.  Years are counted from March here, so
that the leap day is the last of its year. -/
def civil (ordinal : Int) : CivilDate :=
  let z := ordinal + 305
  let doe := (z % 146097).toNat
  let yoe := (doe - doe / 1460 + doe / 36524 - doe / 146096) / 365
  let doy := doe - (365 * yoe + yoe / 4 - yoe / 100)
  let mp := (5 * doy + 2) / 153
  let month := if mp < 10 then mp + 3 else mp - 9
  ⟨z / 146097 * 400 + yoe + if month ≤ 2 then 1 else 0, month, doy - (153 * mp + 2) / 5 + 1⟩

def zeroPad (width n : Nat) : String :=
  let digits := toString n
  String.ofList (List.replicate (width - digits.length) '0') ++ digits

/-- `date.isoformat()`. -/
def isoformat (ordinal : Int) : String :=
  let date := civil ordinal
  zeroPad 4 date.year.toNat ++ "-" ++ zeroPad 2 date.month ++ "-" ++ zeroPad 2 date.day

end PyTime
