import FinancialDashboard.Lib.Calendar
import FinancialDashboard.Lib.FixedWidth

/-!
# The names of backups

A backup of `services/system_backups.py` is a directory whose name begins with the UTC time it
was made at, and while it is being made it stands under a hidden temporary name.  A `\d` of the
two patterns is an ASCII digit here, as in all names the service makes.

* `backupIdCreatedAt_newBackupId`: the time can be read back from the name.
* `newBackupId_lt`: names are in the order of the times, so that sorting names sorts backups.
* `not_isBackupId_of_temporary`: no temporary name is the name of a backup.
-/

namespace FinancialDashboard.Backups

open PyTime

/-! ### Reading -/

/-- `width` digits and what follows them. -/
def readNumber (width : Nat) (text : List Char) : Option (Nat × List Char) :=
  if (text.take width).length = width ∧ (text.take width).all Char.isDigit then
    some (Nat.ofDigitChars 10 (text.take width) 0, text.drop width)
  else none

def readChar (c : Char) : List Char → Option (List Char)
  | [] => none
  | d :: rest => if d = c then some rest else none

def isHexDigit (c : Char) : Bool := c ∈ "0123456789abcdef".toList

/-- `[0-9a-f]{16}`. -/
def readToken (text : List Char) : Option (List Char) :=
  if (text.take 16).length = 16 ∧ (text.take 16).all isHexDigit then some (text.drop 16) else none

/-- What `secrets.token_hex(8)` draws. -/
structure Token where
  text : String
  length_eq : text.toList.length = 16
  isHex : text.toList.all isHexDigit = true
  deriving DecidableEq

/-! ### Identifiers -/

/-- `\d{8}T\d{12}Z-[0-9a-f]{16}` and what follows it. -/
def readBackupId (text : List Char) : Option (List Char) := do
  let (_, text) ← readNumber 8 text
  let text ← readChar 'T' text
  let (_, text) ← readNumber 12 text
  let text ← readChar 'Z' text
  let text ← readChar '-' text
  readToken text

/-- `_BACKUP_ID_PATTERN.fullmatch`. -/
def isBackupId (name : String) : Bool := readBackupId name.toList = some []

/-- `_TEMP_DIRECTORY_PATTERN.fullmatch`. -/
def isTemporaryName (name : String) : Bool :=
  (do let text ← readChar '.' name.toList
      let text ← readBackupId text
      let text ← readChar '.' text
      readToken text) = some ".tmp".toList

/-- `strftime("%Y%m%d")` as a number. -/
def dateNumber (ordinal : Int) : Nat :=
  10000 * (civil ordinal).year.toNat + 100 * (civil ordinal).month + (civil ordinal).day

/-- `strftime("%H%M%S%f")` as a number. -/
def clockNumber (t : TimeOfDay) : Nat :=
  let second := t.micros / 1000000
  let minute := second / 60
  1000000 * (100 * (100 * (minute / 60) + minute % 60) + second % 60) + t.micros % 1000000

/-- `strftime("%Y%m%dT%H%M%S%fZ")` of a time in UTC. -/
def timestamp (createdAt : Int) : String :=
  zeroPad 8 (dateNumber (dateOf createdAt)) ++ ("T" ++ (zeroPad 12 (clockNumber (clockOf createdAt)) ++
    "Z"))

def newBackupId (createdAt : Int) (token : Token) : String :=
  timestamp createdAt ++ ("-" ++ token.text)

/-- `f".{backup_id}.{temporary_token}.tmp"`. -/
def temporaryName (backupId : String) (token : Token) : String :=
  "." ++ (backupId ++ ("." ++ (token.text ++ ".tmp")))

/-- `datetime.strptime(text, "%Y%m%dT%H%M%S%fZ")`; with 20 digits every field is full. -/
def strptime (text : List Char) : Option Int := do
  let (date, text) ← readNumber 8 text
  let text ← readChar 'T' text
  let (clock, text) ← readNumber 12 text
  let text ← readChar 'Z' text
  let year := date / 10000
  let month := date / 100 % 100
  let day := date % 100
  let hour := clock / 10000000000
  let minute := clock / 100000000 % 100
  let second := clock / 1000000 % 100
  if text = [] ∧ 1 ≤ year ∧ 1 ≤ month ∧ month ≤ 12 ∧ 1 ≤ day ∧
      (day : Int) ≤ daysInMonth (12 * year + month - 1) ∧ hour < 24 ∧ minute < 60 ∧ second < 60 then
    some (days (firstOf (12 * year + month - 1) + day - 1) +
      ((3600 * hour + 60 * minute + second) * 1000000 + clock % 1000000 : Nat))
  else none

/-- `_backup_id_created_at`; `none` where `strptime` raises. -/
def backupIdCreatedAt (backupId : String) : Option Int :=
  strptime (backupId.toList.takeWhile (· ≠ '-'))

/-! ### What is read back -/

variable {m n createdAt : Int} {token token' : Token}

theorem readNumber_zeroPad {width n : Nat} (hwidth : 0 < width) (hn : n < 10 ^ width)
    (rest : List Char) : readNumber width ((zeroPad width n).toList ++ rest) = some (n, rest) := by
  have hlen : (zeroPad width n).toList.length = width := length_zeroPad_of_lt hwidth hn
  unfold readNumber
  rw [List.take_left' hlen, List.drop_left' hlen,
    if_pos ⟨hlen, List.all_eq_true.mpr fun _ => isDigit_of_mem_zeroPad⟩, ofDigitChars_zeroPad]

theorem readChar_cons (c : Char) (rest : List Char) : readChar c (c :: rest) = some rest :=
  if_pos rfl

theorem readToken_append (token : Token) (rest : List Char) :
    readToken (token.text.toList ++ rest) = some rest := by
  unfold readToken
  rw [List.take_left' token.length_eq, List.drop_left' token.length_eq,
    if_pos ⟨token.length_eq, token.isHex⟩]

/-- The fields of a date. -/
theorem dateNumber_spec (h : IsDate n) :
    (dateNumber n : Int) = 10000 * (monthOf n / 12) + 100 * (monthOf n % 12 + 1) +
      (n - firstOf (monthOf n) + 1) ∧ 1 ≤ n - firstOf (monthOf n) + 1 ∧
      n - firstOf (monthOf n) + 1 ≤ 31 ∧ 12 ≤ monthOf n ∧ monthOf n < 120000 := by
  have hyear := civil_year n
  have hmonth := civil_month n
  have hday := civil_day n
  have hfirst := (firstOf_monthOf n).2.1
  have hlast := civil_day_le n
  have hbound := (daysInMonth_bounds (monthOf n)).2
  obtain ⟨hmin, hmax⟩ := isDate_iff.mp h
  unfold dateNumber
  push_cast
  rw [hmonth, hday, hyear, Int.toNat_of_nonneg (by omega)]
  omega

theorem dateNumber_lt (h : IsDate n) : dateNumber n < 10 ^ 8 := by
  obtain ⟨heq, -, hday, -, hmax⟩ := dateNumber_spec h
  have h8 : (10 : Nat) ^ 8 = 100000000 := by norm_num
  omega

/-- Dates stand in the order of their numbers. -/
theorem dateNumber_mono (hm : IsDate m) (hn : IsDate n) (h : m < n) : dateNumber m < dateNumber n := by
  obtain ⟨heq, hone, hday, -, -⟩ := dateNumber_spec hm
  obtain ⟨heq', hone', hday', -, -⟩ := dateNumber_spec hn
  rcases (monthOf_mono h.le).lt_or_eq with hlt | hsame
  · omega
  · rw [hsame] at heq
    omega

/-- A number with one more place stays in order. -/
theorem strictMono_place {f : Nat → Nat} (hf : StrictMono f) {b place : Nat} (hb : 0 < b)
    (h : b ≤ place) : StrictMono fun n => place * f (n / b) + n % b := by
  intro m n hmn
  dsimp only
  rcases (Nat.div_le_div_right hmn.le : m / b ≤ n / b).lt_or_eq with hlt | hsame
  · have hmul : place * (f (m / b) + 1) ≤ place * f (n / b) := Nat.mul_le_mul_left _ (hf hlt)
    have hmod := Nat.mod_lt m hb
    rw [Nat.mul_add, Nat.mul_one] at hmul
    omega
  · have hm := Nat.div_add_mod m b
    have hn := Nat.div_add_mod n b
    rw [hsame] at hm ⊢
    omega

theorem clockNumber_mono {t u : TimeOfDay} (h : t.micros < u.micros) :
    clockNumber t < clockNumber u :=
  strictMono_place (strictMono_place (strictMono_place strictMono_id (by decide) (by decide))
    (by decide) (by decide)) (by decide) (by decide) h

/-- The hour, the minute, the second and what is left. -/
theorem clockNumber_spec (t : TimeOfDay) : ∃ hour minute second rest : Nat,
    clockNumber t = 1000000 * (100 * (100 * hour + minute) + second) + rest ∧
      t.micros = (3600 * hour + 60 * minute + second) * 1000000 + rest ∧
      hour < 24 ∧ minute < 60 ∧ second < 60 ∧ rest < 1000000 := by
  have hlt := t.lt
  unfold days hours minutes seconds at hlt
  refine ⟨t.micros / 1000000 / 60 / 60, t.micros / 1000000 / 60 % 60, t.micros / 1000000 % 60,
    t.micros % 1000000, rfl, ?_, ?_, Nat.mod_lt _ (by decide), Nat.mod_lt _ (by decide),
    Nat.mod_lt _ (by decide)⟩
  · omega
  · omega

theorem clockNumber_lt (t : TimeOfDay) : clockNumber t < 10 ^ 12 := by
  obtain ⟨hour, minute, second, rest, heq, -, hhour, hminute, hsecond, hrest⟩ := clockNumber_spec t
  have h12 : (10 : Nat) ^ 12 = 1000000000000 := by norm_num
  omega

theorem toList_newBackupId (createdAt : Int) (token : Token) :
    (newBackupId createdAt token).toList = (zeroPad 8 (dateNumber (dateOf createdAt))).toList ++
      'T' :: ((zeroPad 12 (clockNumber (clockOf createdAt))).toList ++
        'Z' :: '-' :: token.text.toList) := by
  have hsep : "T".toList = ['T'] := rfl
  have hzone : "Z".toList = ['Z'] := rfl
  have hdash : "-".toList = ['-'] := rfl
  unfold newBackupId timestamp
  simp only [String.toList_append, List.append_assoc, hsep, hzone, hdash, List.cons_append,
    List.nil_append]

/-- **Backup names are in the order of the times.** -/
theorem newBackupId_lt (hm : IsDate (dateOf m)) (hn : IsDate (dateOf n)) (h : m < n)
    (token token' : Token) : newBackupId m token < newBackupId n token' := by
  rw [String.lt_iff_toList_lt, toList_newBackupId, toList_newBackupId]
  have hlen : ∀ {n}, IsDate n → (zeroPad 8 (dateNumber n)).toList.length = 8 :=
    fun hd => length_zeroPad_of_lt (by decide) (dateNumber_lt hd)
  have hlen' : ∀ t, (zeroPad 12 (clockNumber t)).toList.length = 12 :=
    fun t => length_zeroPad_of_lt (by decide) (clockNumber_lt t)
  rcases (dateOf_mono h.le).lt_or_eq with hlt | hsame
  · exact append_lt_append (by rw [hlen hm, hlen hn])
      (zeroPad_lt (by decide) (dateNumber_lt hn) (dateNumber_mono hm hn hlt))
  · have hclock : (clockOf m).micros < (clockOf n).micros := by
      have hm' := combine_dateOf_clockOf m
      have hn' := combine_dateOf_clockOf n
      unfold combine at hm' hn'
      rw [hsame] at hm'
      omega
    rw [hsame]
    refine List.append_left_lt (List.cons_lt_cons_iff.mpr (.inr ⟨rfl, ?_⟩))
    exact append_lt_append (by rw [hlen', hlen'])
      (zeroPad_lt (by decide) (clockNumber_lt _) (clockNumber_mono hclock))

theorem readBackupId_newBackupId (h : IsDate (dateOf createdAt)) (token : Token)
    (rest : List Char) :
    readBackupId ((newBackupId createdAt token).toList ++ rest) = some rest := by
  rw [toList_newBackupId]
  unfold readBackupId
  simp only [List.append_assoc, List.cons_append, readNumber_zeroPad (by decide : 0 < 8)
    (dateNumber_lt h), readNumber_zeroPad (by decide : 0 < 12) (clockNumber_lt _), readChar_cons,
    Option.bind_eq_bind, Option.bind_some, readToken_append]

theorem isBackupId_newBackupId (h : IsDate (dateOf createdAt)) (token : Token) :
    isBackupId (newBackupId createdAt token) = true := by
  have hread := readBackupId_newBackupId h token []
  rw [List.append_nil] at hread
  unfold isBackupId
  rw [hread, decide_eq_true rfl]

theorem isTemporaryName_temporaryName (h : IsDate (dateOf createdAt)) (token token' : Token) :
    isTemporaryName (temporaryName (newBackupId createdAt token) token') = true := by
  have hlist : (temporaryName (newBackupId createdAt token) token').toList =
      '.' :: ((newBackupId createdAt token).toList ++ '.' :: (token'.text.toList ++ ".tmp".toList)) := by
    have hdot : ".".toList = ['.'] := rfl
    unfold temporaryName
    simp only [String.toList_append, hdot, List.cons_append, List.nil_append]
  unfold isTemporaryName
  rw [hlist, readChar_cons, decide_eq_true_eq]
  simp only [Option.bind_eq_bind, Option.bind_some, readBackupId_newBackupId h, readChar_cons,
    readToken_append]

/-- **No temporary name is the name of a backup.** -/
theorem not_isBackupId_of_temporary {name : String} (h : isTemporaryName name = true) :
    isBackupId name = false := by
  unfold isTemporaryName at h
  unfold isBackupId
  cases hname : name.toList with
  | nil => rfl
  | cons c rest =>
    rw [hname] at h
    by_cases hdot : c = '.'
    · subst hdot
      rw [decide_eq_false_iff_not]
      have hnumber : readNumber 8 ('.' :: rest) = none := by
        unfold readNumber
        exact if_neg fun hd => absurd hd.2 (by simp)
      unfold readBackupId
      rw [hnumber]
      simp
    · have hchar : readChar '.' (c :: rest) = none := if_neg hdot
      rw [hchar] at h
      exact absurd h (by decide)

/-- **The time of a backup can be read from its name.** -/
theorem backupIdCreatedAt_newBackupId (h : IsDate (dateOf createdAt)) (token : Token) :
    backupIdCreatedAt (newBackupId createdAt token) = some createdAt := by
  have hdigit : ∀ width k, ∀ c ∈ (zeroPad width k).toList, decide (c ≠ '-') = true := by
    intro width k c hc
    exact decide_eq_true fun hdash => absurd (isDigit_of_mem_zeroPad hc) (by rw [hdash]; decide)
  have htake : (newBackupId createdAt token).toList.takeWhile (· ≠ '-') =
      (zeroPad 8 (dateNumber (dateOf createdAt))).toList ++
        'T' :: ((zeroPad 12 (clockNumber (clockOf createdAt))).toList ++ ['Z']) := by
    rw [toList_newBackupId, List.takeWhile_append_of_pos (hdigit _ _),
      List.takeWhile_cons_of_pos (by decide), List.takeWhile_append_of_pos (hdigit _ _),
      List.takeWhile_cons_of_pos (by decide), List.takeWhile_cons_of_neg (by decide)]
  obtain ⟨hdate, hone, hday, hmin, hmax⟩ := dateNumber_spec h
  have hlast : dateOf createdAt - firstOf (monthOf (dateOf createdAt)) + 1 ≤
      daysInMonth (monthOf (dateOf createdAt)) := by
    have := civil_day_le (dateOf createdAt)
    rwa [civil_day] at this
  obtain ⟨hour, minute, second, rest, hclock, hmicros, hhour, hminute, hsecond, hrest⟩ :=
    clockNumber_spec (clockOf createdAt)
  have hpoint := combine_dateOf_clockOf createdAt
  have hmonth : 12 * ((dateNumber (dateOf createdAt) / 10000 : Nat) : Int) +
      (dateNumber (dateOf createdAt) / 100 % 100 : Nat) - 1 = monthOf (dateOf createdAt) := by
    omega
  have hdate' : firstOf (monthOf (dateOf createdAt)) + (dateNumber (dateOf createdAt) % 100 : Nat) -
      1 = dateOf createdAt := by omega
  have hhours : clockNumber (clockOf createdAt) / 10000000000 = hour := by omega
  have hminutes : clockNumber (clockOf createdAt) / 100000000 % 100 = minute := by omega
  have hseconds : clockNumber (clockOf createdAt) / 1000000 % 100 = second := by omega
  have hrests : clockNumber (clockOf createdAt) % 1000000 = rest := by omega
  unfold backupIdCreatedAt strptime
  rw [htake, readNumber_zeroPad (by decide) (dateNumber_lt h)]
  simp only [Option.bind_eq_bind, Option.bind_some, readChar_cons,
    readNumber_zeroPad (by decide : 0 < 12) (clockNumber_lt _)]
  rw [hmonth, hdate', hhours, hminutes, hseconds, hrests, ← hmicros, if_pos]
  · exact congrArg some hpoint
  · refine ⟨trivial, ?_, ?_, ?_, ?_, ?_, hhour, hminute, hsecond⟩
    all_goals omega

end FinancialDashboard.Backups
