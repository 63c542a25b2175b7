import FinancialDashboard.Transactions.SmsPipeline

/-!
# From an email to a transaction

`_process_email_full` of `services/emails.py`, from the body and the `Date` header on, with
its two uses of the arrival: the recovery of a lost AM/PM marker, and the date and the time of
a body that states none.  The parser is a package of its own and stands as a function.

* `closest_eq`: the loop over the candidates finds the plausible one that is nearest.
* `disambiguateAmPm_recovers`: the marker is recovered within half a day, and nothing but the
  half of the day ever changes.
* `backfilled_same_iff`: when an email and an SMS without a date get the same one.
-/

namespace FinancialDashboard.Transactions

open PyTime

/-! ### The arrival -/

/-- A `datetime`: the clock it shows, and its offset from UTC where it has one. -/
structure Datetime where
  wall : Int
  utcoffset : Option Int
  deriving DecidableEq

namespace Datetime

/-- `.date()` -/
def date (d : Datetime) : Int := dateOf d.wall

/-- The clock in `Asia/Kolkata`; one without an offset is taken to show it. -/
def receivedIst (d : Datetime) : Int :=
  match d.utcoffset with
  | none => d.wall
  | some offset => ist (d.wall - offset)

/-- The point in UTC. -/
def instant (d : Datetime) : Int := d.wall - d.utcoffset.getD (minutes 330)

theorem receivedIst_eq (d : Datetime) : d.receivedIst = ist d.instant := by
  unfold receivedIst instant
  cases d.utcoffset with
  | none =>
    unfold ist
    exact (Int.sub_add_cancel _ _).symm
  | some offset => rfl

end Datetime

/-! ### AM or PM -/

def receivedAtFutureTolerance : Int := minutes 5

def receivedAtPastLimit : Int := hours 12

/-- The two readings of a clock without a marker; none where the clock has 24 hours. -/
def amPmCandidates (parsedTime : TimeOfDay) : Option (List TimeOfDay) :=
  if parsedTime.hour = 0 then none
  else if h : parsedTime.hour < 12 then
    some [parsedTime, parsedTime.replaceHour ⟨parsedTime.hour + 12, by omega⟩]
  else if parsedTime.hour = 12 then some [parsedTime.replaceHour 0, parsedTime]
  else none

section Closest

variable (transactionDate received : Int)

/-- `cand_dt - received_ist` -/
def delta (candidate : TimeOfDay) : Int := combine transactionDate candidate - received

/-- One turn of the loop over the candidates. -/
def consider (best : Option (Nat × TimeOfDay)) (candidate : TimeOfDay) :
    Option (Nat × TimeOfDay) :=
  let d := delta transactionDate received candidate
  if receivedAtFutureTolerance < d then best
  else if receivedAtPastLimit < -d then best
  else
    match best with
    | none => some (d.natAbs, candidate)
    | some b => if d.natAbs < b.1 then some (d.natAbs, candidate) else best

def closest (candidates : List TimeOfDay) : Option (Nat × TimeOfDay) :=
  candidates.foldl (consider transactionDate received) none

end Closest

def disambiguateAmPm (parsedTime : TimeOfDay) (transactionDate : Option Int)
    (receivedAt : Option Datetime) : TimeOfDay :=
  match transactionDate, receivedAt with
  | some date, some received =>
    match amPmCandidates parsedTime with
    | none => parsedTime
    | some candidates =>
      ((closest date received.receivedIst candidates).map (·.2)).getD parsedTime
  | _, _ => parsedTime

/-! ### The nearest candidate -/

section Nearest

variable {transactionDate received : Int} {candidates : List TimeOfDay}
  {best : Option (Nat × TimeOfDay)} {candidate c : TimeOfDay}

/-- Not in the future of the arrival, and not long before it. -/
def Plausible (transactionDate received : Int) (candidate : TimeOfDay) : Prop :=
  delta transactionDate received candidate ≤ receivedAtFutureTolerance ∧
    -delta transactionDate received candidate ≤ receivedAtPastLimit

def gap (transactionDate received : Int) (candidate : TimeOfDay) : Nat :=
  (delta transactionDate received candidate).natAbs

theorem consider_far (h : ¬ Plausible transactionDate received candidate) :
    consider transactionDate received best candidate = best := by
  unfold consider
  dsimp only
  split_ifs with hfuture hpast
  · rfl
  · rfl
  · exact absurd ⟨not_lt.mp hfuture, not_lt.mp hpast⟩ h

theorem consider_near (h : Plausible transactionDate received candidate) :
    consider transactionDate received best candidate =
      match best with
      | none => some (gap transactionDate received candidate, candidate)
      | some b =>
        if gap transactionDate received candidate < b.1 then
          some (gap transactionDate received candidate, candidate)
        else best := by
  unfold consider
  dsimp only
  rw [if_neg (not_lt.mpr h.1), if_neg (not_lt.mpr h.2)]
  rfl

/-- The nearest candidate stays the best one. -/
theorem foldl_consider_eq (h : ∀ other ∈ candidates, other ≠ c →
      ¬ Plausible transactionDate received other ∨
        gap transactionDate received c < gap transactionDate received other) :
    candidates.foldl (consider transactionDate received)
      (some (gap transactionDate received c, c)) = some (gap transactionDate received c, c) := by
  induction candidates with
  | nil => rfl
  | cons first rest ih =>
    rw [List.foldl_cons]
    have hstep : consider transactionDate received (some (gap transactionDate received c, c))
        first = some (gap transactionDate received c, c) := by
      by_cases hnear : Plausible transactionDate received first
      · have hle : gap transactionDate received c ≤ gap transactionDate received first := by
          by_cases heq : first = c
          · rw [heq]
          · rcases h first List.mem_cons_self heq with hnot | hlt
            · exact absurd hnear hnot
            · exact hlt.le
        rw [consider_near hnear]
        exact if_neg (not_lt.mpr hle)
      · exact consider_far hnear
    rw [hstep]
    exact ih fun other hother => h other (List.mem_cons_of_mem _ hother)

/-- **The loop finds the plausible candidate that is nearest.** -/
theorem closest_eq (hmem : c ∈ candidates) (hnear : Plausible transactionDate received c)
    (h : ∀ other ∈ candidates, other ≠ c → ¬ Plausible transactionDate received other ∨
      gap transactionDate received c < gap transactionDate received other) :
    closest transactionDate received candidates = some (gap transactionDate received c, c) := by
  -- what is best before the turn of `c` is farther away
  have hrun : ∀ best : Option (Nat × TimeOfDay),
      (∀ b, best = some b → gap transactionDate received c < b.1) →
      candidates.foldl (consider transactionDate received) best =
        some (gap transactionDate received c, c) := by
    induction candidates with
    | nil => cases hmem
    | cons first rest ih =>
      intro best hbest
      have hrest : ∀ other ∈ rest, other ≠ c → ¬ Plausible transactionDate received other ∨
          gap transactionDate received c < gap transactionDate received other :=
        fun other hother => h other (List.mem_cons_of_mem _ hother)
      rw [List.foldl_cons]
      by_cases heq : first = c
      · have hstep : consider transactionDate received best first =
            some (gap transactionDate received c, c) := by
          rw [heq, consider_near hnear]
          cases best with
          | none => rfl
          | some b => exact if_pos (hbest b rfl)
        rw [hstep]
        exact foldl_consider_eq hrest
      · have hmem : c ∈ rest := (List.mem_cons.mp hmem).resolve_left (Ne.symm heq)
        refine ih hmem hrest _ fun b hb => ?_
        rcases h first List.mem_cons_self heq with hnot | hlt
        · rw [consider_far hnot] at hb
          exact hbest b hb
        · by_cases hfirst : Plausible transactionDate received first
          · rw [consider_near hfirst] at hb
            cases best with
            | none =>
              obtain rfl := Option.some.inj hb
              exact hlt
            | some old =>
              dsimp only at hb
              split_ifs at hb
              · obtain rfl := Option.some.inj hb
                exact hlt
              · exact hbest b hb
          · rw [consider_far hfirst] at hb
            exact hbest b hb
  exact hrun none fun b hb => (Option.some_ne_none b hb.symm).elim

/-- What the loop finds is a candidate. -/
theorem mem_of_closest {found : Nat × TimeOfDay}
    (h : closest transactionDate received candidates = some found) : found.2 ∈ candidates := by
  have hrun : ∀ best : Option (Nat × TimeOfDay),
      candidates.foldl (consider transactionDate received) best = some found →
        best = some found ∨ found.2 ∈ candidates := by
    clear h
    induction candidates with
    | nil => exact fun best hbest => .inl hbest
    | cons first rest ih =>
      intro best hbest
      rcases ih _ hbest with hstep | hrest
      · by_cases hnear : Plausible transactionDate received first
        · rw [consider_near hnear] at hstep
          cases best with
          | none =>
            obtain rfl := Option.some.inj hstep
            exact .inr List.mem_cons_self
          | some b =>
            dsimp only at hstep
            split_ifs at hstep
            · obtain rfl := Option.some.inj hstep
              exact .inr List.mem_cons_self
            · exact .inl hstep
        · rw [consider_far hnear] at hstep
          exact .inl hstep
      · exact .inr (List.mem_cons_of_mem _ hrest)
  exact (hrun none h).resolve_left (Option.some_ne_none found ·.symm)

end Nearest

/-! ### The two readings -/

/-- The clock on a 12-hour dial without a marker: the hours of noon and of midnight are
printed as 12 or as 0. -/
def Reading (clock printed : TimeOfDay) : Prop :=
  printed.hour ≤ 12 ∧ printed.micros % 43200000000 = clock.micros % 43200000000

instance (clock printed : TimeOfDay) : Decidable (Reading clock printed) :=
  inferInstanceAs (Decidable (_ ∧ _))

theorem eq_or_otherHalf_of_mem {parsedTime candidate : TimeOfDay} {candidates : List TimeOfDay}
    (h : amPmCandidates parsedTime = some candidates) (hmem : candidate ∈ candidates) :
    candidate = parsedTime ∨ candidate = parsedTime.otherHalf := by
  unfold amPmCandidates at h
  split_ifs at h with hzero hmorning hnoon
  · obtain rfl := Option.some.inj h
    rcases List.mem_cons.mp hmem with rfl | hmem
    · exact .inl rfl
    · obtain rfl := List.mem_singleton.mp hmem
      right
      apply TimeOfDay.ext_micros
      unfold TimeOfDay.replaceHour TimeOfDay.otherHalf
      unfold TimeOfDay.hour at hmorning ⊢
      dsimp only
      omega
  · obtain rfl := Option.some.inj h
    rcases List.mem_cons.mp hmem with rfl | hmem
    · right
      apply TimeOfDay.ext_micros
      unfold TimeOfDay.replaceHour TimeOfDay.otherHalf
      unfold TimeOfDay.hour at hnoon
      dsimp only
      omega
    · exact .inl (List.mem_singleton.mp hmem)

/-- A reading that is not hour 0 has two candidates, and they are the clock and its other
half. -/
theorem candidates_of_reading {clock printed : TimeOfDay} (h : Reading clock printed)
    (hhour : printed.hour ≠ 0) : ∃ candidates, amPmCandidates printed = some candidates ∧
      clock ∈ candidates ∧ ∀ other ∈ candidates, other ≠ clock → other = clock.otherHalf := by
  obtain ⟨hle, hmod⟩ := h
  have hclock := clock.lt
  have hprinted := printed.lt
  unfold days PyTime.hours minutes seconds at hclock hprinted
  have hhalves : ∀ other : TimeOfDay, other.micros % 43200000000 = clock.micros % 43200000000 →
      other = clock ∨ other = clock.otherHalf := by
    intro other heq
    have hother := other.lt
    unfold days PyTime.hours minutes seconds at hother
    by_cases hsame : other.micros = clock.micros
    · exact .inl (TimeOfDay.ext_micros hsame)
    · right
      apply TimeOfDay.ext_micros
      unfold TimeOfDay.otherHalf
      dsimp only
      omega
  unfold amPmCandidates
  rw [if_neg hhour]
  by_cases hmorning : printed.hour < 12
  · rw [dif_pos hmorning]
    refine ⟨_, rfl, ?_, ?_⟩
    · by_cases hsame : clock.micros = printed.micros
      · rw [TimeOfDay.ext_micros hsame]
        exact List.mem_cons_self
      · refine List.mem_cons_of_mem _ (List.mem_singleton.mpr ?_)
        apply TimeOfDay.ext_micros
        unfold TimeOfDay.replaceHour
        unfold TimeOfDay.hour at hmorning ⊢
        dsimp only
        omega
    · intro other hother hne
      refine (hhalves other ?_).resolve_left hne
      rcases List.mem_cons.mp hother with rfl | hother
      · exact hmod
      · obtain rfl := List.mem_singleton.mp hother
        unfold TimeOfDay.replaceHour
        unfold TimeOfDay.hour at hmorning ⊢
        dsimp only
        omega
  · have hnoon : printed.hour = 12 := by omega
    rw [dif_neg hmorning, if_pos hnoon]
    unfold TimeOfDay.hour at hnoon
    refine ⟨_, rfl, ?_, ?_⟩
    · by_cases hsame : clock.micros = printed.micros
      · rw [TimeOfDay.ext_micros hsame]
        exact List.mem_cons_of_mem _ (List.mem_singleton.mpr rfl)
      · refine List.mem_cons.mpr (.inl ?_)
        apply TimeOfDay.ext_micros
        unfold TimeOfDay.replaceHour
        dsimp only
        omega
    · intro other hother hne
      refine (hhalves other ?_).resolve_left hne
      rcases List.mem_cons.mp hother with rfl | hother
      · unfold TimeOfDay.replaceHour
        dsimp only
        omega
      · obtain rfl := List.mem_singleton.mp hother
        exact hmod

/-! ### The recovery -/

section Recovery

variable {date received : Int} {clock : TimeOfDay}

theorem plausible_of_window (hlow : -minutes 5 ≤ received - combine date clock)
    (hhigh : received - combine date clock < hours 11 + minutes 55) :
    Plausible date received clock := by
  unfold Plausible delta receivedAtFutureTolerance receivedAtPastLimit
  unfold hours minutes seconds at *
  omega

/-- Within the window the other half of the day lies in the future, too far back, or farther
away. -/
theorem otherHalf_of_window (hlow : -minutes 5 ≤ received - combine date clock)
    (hhigh : received - combine date clock < hours 11 + minutes 55) :
    ¬ Plausible date received clock.otherHalf ∨
      gap date received clock < gap date received clock.otherHalf := by
  have hclock := clock.lt
  by_cases hgap : gap date received clock < gap date received clock.otherHalf
  · exact .inr hgap
  · left
    rintro ⟨hfuture, hpast⟩
    unfold gap at hgap
    unfold delta combine TimeOfDay.otherHalf at *
    unfold receivedAtFutureTolerance at hfuture
    unfold receivedAtPastLimit at hpast
    unfold days hours minutes seconds at *
    dsimp only at *
    omega

end Recovery

theorem disambiguateAmPm_of_hour_zero {parsedTime : TimeOfDay} (h : parsedTime.hour = 0)
    (transactionDate : Option Int) (receivedAt : Option Datetime) :
    disambiguateAmPm parsedTime transactionDate receivedAt = parsedTime := by
  unfold disambiguateAmPm
  cases transactionDate with
  | none => rfl
  | some date =>
    cases receivedAt with
    | none => rfl
    | some received =>
      unfold amPmCandidates
      dsimp only
      rw [if_pos h]

theorem eq_or_otherHalf_of_disambiguateAmPm (parsedTime : TimeOfDay)
    (transactionDate : Option Int) (receivedAt : Option Datetime) :
    disambiguateAmPm parsedTime transactionDate receivedAt = parsedTime ∨
      disambiguateAmPm parsedTime transactionDate receivedAt = parsedTime.otherHalf := by
  unfold disambiguateAmPm
  cases transactionDate with
  | none => exact .inl rfl
  | some date =>
    cases receivedAt with
    | none => exact .inl rfl
    | some received =>
      dsimp only
      cases hcandidates : amPmCandidates parsedTime with
      | none => exact .inl rfl
      | some candidates =>
        dsimp only
        cases hfound : closest date received.receivedIst candidates with
        | none => exact .inl rfl
        | some found => exact eq_or_otherHalf_of_mem hcandidates (mem_of_closest hfound)

/-- The marker is recovered from a reading that is not hour 0. -/
theorem disambiguateAmPm_of_reading {t : Int} {a : Datetime} {printed : TimeOfDay}
    (hlow : -minutes 5 ≤ a.instant - t) (hhigh : a.instant - t < hours 11 + minutes 55)
    (hprinted : Reading (clockOf (ist t)) printed) (hhour : printed.hour ≠ 0) :
    disambiguateAmPm printed (some (dateOf (ist t))) (some a) = clockOf (ist t) := by
  have hlag : a.receivedIst - combine (dateOf (ist t)) (clockOf (ist t)) = a.instant - t := by
    rw [combine_dateOf_clockOf, a.receivedIst_eq]
    unfold ist
    omega
  rw [← hlag] at hlow hhigh
  obtain ⟨candidates, hcandidates, hmem, hother⟩ := candidates_of_reading hprinted hhour
  unfold disambiguateAmPm
  dsimp only
  rw [hcandidates]
  dsimp only
  rw [closest_eq hmem (plausible_of_window hlow hhigh) fun other hmem hne =>
    hother other hmem hne ▸ otherHalf_of_window hlow hhigh]
  rfl

/-- **The marker is recovered within half a day.**  An alert that states the date of an
instant and its clock on a 12-hour dial, and arrives between five minutes before and eleven
hours and fifty-five minutes after it, gives the instant back; noon printed as hour 0 is read as
midnight.  Whatever the input, the result is the parsed time or twelve hours from it. -/
theorem disambiguateAmPm_recovers :
    (∀ (t : Int) (a : Datetime) (printed : TimeOfDay), -minutes 5 ≤ a.instant - t →
      a.instant - t < hours 11 + minutes 55 → Reading (clockOf (ist t)) printed →
      ¬ (printed.hour = 0 ∧ (clockOf (ist t)).hour = 12) →
      disambiguateAmPm printed (some (dateOf (ist t))) (some a) = clockOf (ist t)) ∧
    (∀ (parsedTime : TimeOfDay) (date : Option Int) (a : Option Datetime),
      parsedTime.hour = 0 → disambiguateAmPm parsedTime date a = parsedTime) ∧
    ∀ (parsedTime : TimeOfDay) (date : Option Int) (a : Option Datetime),
      disambiguateAmPm parsedTime date a = parsedTime ∨
        disambiguateAmPm parsedTime date a = parsedTime.otherHalf := by
  refine ⟨fun t a printed hlow hhigh hprinted hnoon => ?_,
    fun parsedTime date a h => disambiguateAmPm_of_hour_zero h date a,
    eq_or_otherHalf_of_disambiguateAmPm⟩
  by_cases hhour : printed.hour = 0
  · -- only midnight is left, and the reading is the clock itself
    rw [disambiguateAmPm_of_hour_zero hhour]
    apply TimeOfDay.ext_micros
    have hclock := (clockOf (ist t)).lt
    obtain ⟨-, hmod⟩ := hprinted
    unfold days PyTime.hours minutes seconds at hclock
    unfold TimeOfDay.hour at hhour hnoon
    omega
  · exact disambiguateAmPm_of_reading hlow hhigh hprinted hhour

/-- 18:37:31 printed as 06:37:31, in an email that arrives twelve seconds later. -/
theorem disambiguateAmPm_recovers_evening :
    disambiguateAmPm ⟨23851000000, by decide⟩ (some 0) (some ⟨47263000000, some 0⟩) =
      ⟨67051000000, by decide⟩ :=
  disambiguateAmPm_recovers.1 47251000000 ⟨47263000000, some 0⟩ ⟨23851000000, by decide⟩
    (by decide) (by decide) (by decide) (by decide)

/-- Half past twelve at noon, printed as 00:30. -/
theorem noon_not_recovered :
    ¬ ∀ (t : Int) (a : Datetime) (printed : TimeOfDay), -minutes 5 ≤ a.instant - t →
      a.instant - t < hours 11 + minutes 55 → Reading (clockOf (ist t)) printed →
      printed.hour < 12 →
      disambiguateAmPm printed (some (dateOf (ist t))) (some a) = clockOf (ist t) := by
  intro h
  have hnoon := h 25200000000 ⟨25200000000, some 0⟩ ⟨1800000000, by decide⟩ (by decide)
    (by decide) (by decide) (by decide)
  exact absurd hnoon (by decide)

/-! ### The pipeline -/

structure ParsedEmail where
  bank : String
  emailType : String
  /-- `event_time_source == "message_arrival"` -/
  timeOfArrival : Bool
  identifiesBy : IdentifiesBy
  passwordHint : Option String
  transaction : Option ParsedTransaction

inductive EmailParse
  /-- `ParseError` or `UnsupportedEmailTypeError` -/
  | failed (message : String)
  | parsed (email : ParsedEmail)

/-- What the email package reads from the bytes. -/
structure RawEmail where
  htmlBody : Option String
  textBody : Option String
  /-- `_parse_email_date` -/
  date : Option Datetime

structure ProcessedEmailParse where
  error : Option String
  txnData : Option TxnData
  passwordHint : Option String
  parsedEmail : Option ParsedEmail

/-- The HTML body, or the text body where it is absent or empty. -/
def RawEmail.body (raw : RawEmail) : Option String :=
  (raw.htmlBody.filter (· ≠ "")) <|> raw.textBody.filter (· ≠ "")

/-- The date and the time of the row, and whether the arrival supplied the time. -/
def eventPoint (parsed : ParsedEmail) (txn : ParsedTransaction) (receivedAt : Option Datetime) :
    Option Int × Option TimeOfDay × Bool :=
  let transactionDate := txn.transactionDate <|> receivedAt.map (·.date)
  match txn.transactionTime, receivedAt with
  | none, some received =>
    if parsed.timeOfArrival then
      (txn.transactionDate <|> some (dateOf received.receivedIst),
        some (wholeSecond received.receivedIst), true)
    else (transactionDate, none, false)
  | some time, _ =>
    if parsed.emailType ∈ ambiguous12hTimeEmailTypes then
      (transactionDate, some (disambiguateAmPm time transactionDate receivedAt), false)
    else (transactionDate, some time, false)
  | none, none => (transactionDate, none, false)

def emailTxnData (parsed : ParsedEmail) (receivedAt : Option Datetime)
    (txn : ParsedTransaction) : TxnData :=
  let point := eventPoint parsed txn receivedAt
  { bank := parsed.bank
    emailType := parsed.emailType
    direction := txn.direction
    amount := txn.amount
    currency := txn.currency
    transactionDate := point.1
    transactionTime := point.2.1
    counterparty := txn.counterparty
    cardMask := txn.cardMask
    accountMask := txn.accountMask
    referenceNumber := txn.referenceNumber
    channel := txn.channel
    balance := txn.balance
    rawDescription := txn.rawDescription
    transactionTimeIsReceivedTime := point.2.2
    identifiesBy := parsed.identifiesBy }

/-- `_process_email_full` -/
def processEmailFull (parseEmail : String → String → EmailParse) (bank : String)
    (raw : RawEmail) : ProcessedEmailParse :=
  match raw.body with
  | none => ⟨some "No HTML or text body found in email", none, none, none⟩
  | some body =>
    match parseEmail bank body with
    | .failed message => ⟨some message, none, none, none⟩
    | .parsed parsed =>
      ⟨none, parsed.transaction.map (emailTxnData parsed raw.date), parsed.passwordHint,
        some parsed⟩

/-! ### The date of a body without one -/

section Backfill

variable {parseEmail : String → String → EmailParse} {bank : String} {raw : RawEmail}
  {parsed : ParsedEmail} {txn : ParsedTransaction} {a : Datetime}

/-- The email was read, and its transaction has no date. -/
structure UndatedEmail (parseEmail : String → String → EmailParse) (bank : String)
    (raw : RawEmail) (parsed : ParsedEmail) (txn : ParsedTransaction) (a : Datetime) : Prop where
  body : ∃ body, raw.body = some body ∧ parseEmail bank body = .parsed parsed
  transaction : parsed.transaction = some txn
  date : txn.transactionDate = none
  arrival : raw.date = some a

/-- The arrival supplies the time. -/
def TimeOfArrival (parsed : ParsedEmail) (txn : ParsedTransaction) : Prop :=
  txn.transactionTime = none ∧ parsed.timeOfArrival = true

theorem processEmailFull_eq (h : UndatedEmail parseEmail bank raw parsed txn a) :
    processEmailFull parseEmail bank raw =
      ⟨none, some (emailTxnData parsed (some a) txn), parsed.passwordHint, some parsed⟩ := by
  obtain ⟨body, hbody, hparsed⟩ := h.body
  unfold processEmailFull
  rw [hbody]
  dsimp only
  rw [hparsed]
  dsimp only
  rw [h.transaction, h.arrival]
  rfl

theorem date_of_timeOfArrival (hdate : txn.transactionDate = none)
    (h : TimeOfArrival parsed txn) :
    (emailTxnData parsed (some a) txn).transactionDate = some (dateOf (ist a.instant)) := by
  unfold emailTxnData eventPoint
  dsimp only
  rw [h.1, hdate]
  dsimp only
  rw [if_pos h.2, a.receivedIst_eq]
  rfl

/-- Otherwise the email is dated in the zone of its header. -/
theorem date_of_not_timeOfArrival (hdate : txn.transactionDate = none)
    (h : ¬ TimeOfArrival parsed txn) :
    (emailTxnData parsed (some a) txn).transactionDate = some a.date := by
  unfold emailTxnData eventPoint
  dsimp only
  rw [hdate]
  cases htime : txn.transactionTime with
  | none =>
    have harrival : ¬ parsed.timeOfArrival = true := fun harrival => h ⟨htime, harrival⟩
    dsimp only
    rw [if_neg harrival]
    rfl
  | some time =>
    dsimp only
    split_ifs with hambiguous
    · rfl
    · rfl

/-- The SMS is dated in `Asia/Kolkata`. -/
theorem date_of_parsedSmsToTxnData {sms : ParsedSms} {smsTxn : ParsedTransaction}
    (hsms : sms.transaction = some smsTxn) (hdate : smsTxn.transactionDate = none)
    (receivedAt : Int) :
    (parsedSmsToTxnData sms receivedAt).map (·.transactionDate) =
      some (some (dateOf (ist receivedAt))) := by
  unfold parsedSmsToTxnData
  rw [hsms, Option.map_some, Option.map_some, hdate]
  rfl

/-- **When the channels date an arrival alike.**  An email and an SMS that arrive at one
instant, and whose bodies state no date, both get the date of the instant in `Asia/Kolkata`
if and only if the arrival supplies the time of the email too, or the `Date` header shows
that date. -/
theorem backfilled_same_iff (h : UndatedEmail parseEmail bank raw parsed txn a)
    {sms : ParsedSms} {smsTxn : ParsedTransaction} (hsms : sms.transaction = some smsTxn)
    (hdate : smsTxn.transactionDate = none) :
    (∃ emailData smsData, (processEmailFull parseEmail bank raw).txnData = some emailData ∧
        parsedSmsToTxnData sms a.instant = some smsData ∧
        emailData.transactionDate = some (dateOf (ist a.instant)) ∧
        smsData.transactionDate = some (dateOf (ist a.instant))) ↔
      TimeOfArrival parsed txn ∨ a.date = dateOf (ist a.instant) := by
  obtain ⟨smsData, hsmsData, hsmsDate⟩ :=
    Option.map_eq_some_iff.mp (date_of_parsedSmsToTxnData hsms hdate a.instant)
  rw [processEmailFull_eq h]
  constructor
  · rintro ⟨emailData, -, hemail, -, hsame, -⟩
    obtain rfl := Option.some.inj hemail
    by_cases harrival : TimeOfArrival parsed txn
    · exact .inl harrival
    · rw [date_of_not_timeOfArrival h.date harrival] at hsame
      exact .inr (Option.some.inj hsame)
  · intro hcases
    refine ⟨_, smsData, rfl, hsmsData, ?_, hsmsDate⟩
    by_cases harrival : TimeOfArrival parsed txn
    · exact date_of_timeOfArrival h.date harrival
    · rw [date_of_not_timeOfArrival h.date harrival, hcases.resolve_left harrival]

/-- A debit that states neither a date nor a time. -/
def undatedDebit : ParsedTransaction where
  direction := "debit"
  amount := 500
  currency := some "INR"
  transactionDate := none
  transactionTime := none
  counterparty := some "merchant"
  cardMask := none
  accountMask := some "XX0000"
  referenceNumber := none
  channel := some "upi"
  balance := none
  rawDescription := none

def undatedSms : ParsedSms where
  bank := "hdfc"
  emailType := "hdfc_upi_alert"
  ledgerRole := .other
  timeOfArrival := false
  identifiesBy := .counterparty
  transaction := some undatedDebit

def undatedEmail : ParsedEmail where
  bank := "hdfc"
  emailType := "hdfc_upi_alert"
  timeOfArrival := false
  identifiesBy := .counterparty
  passwordHint := none
  transaction := some undatedDebit

/-- An email whose header shows 20:15 in UTC, a quarter to two on the next day in
`Asia/Kolkata`. -/
def lateEmail : RawEmail where
  htmlBody := some "<p>debited</p>"
  textBody := none
  date := some ⟨72900000000, some 0⟩

theorem undated_lateEmail : UndatedEmail (fun _ _ => .parsed undatedEmail) "hdfc" lateEmail
    undatedEmail undatedDebit ⟨72900000000, some 0⟩ where
  body := ⟨"<p>debited</p>", by decide, rfl⟩
  transaction := rfl
  date := rfl
  arrival := rfl

theorem backfilled_same_lateEmail :
    ¬ ∃ emailData smsData,
      (processEmailFull (fun _ _ => .parsed undatedEmail) "hdfc" lateEmail).txnData =
        some emailData ∧
      parsedSmsToTxnData undatedSms (Datetime.mk 72900000000 (some 0)).instant = some smsData ∧
      emailData.transactionDate = some (dateOf (ist (Datetime.mk 72900000000 (some 0)).instant)) ∧
      smsData.transactionDate = some (dateOf (ist (Datetime.mk 72900000000 (some 0)).instant)) :=
  fun h => absurd ((backfilled_same_iff undated_lateEmail
    (rfl : undatedSms.transaction = some undatedDebit) rfl).mp h) (by unfold TimeOfArrival; decide)

/-- The channels date one arrival a day apart. -/
theorem dated_apart :
    ¬ ∀ (parseEmail : String → String → EmailParse) (bank : String) (raw : RawEmail)
      (parsed : ParsedEmail) (txn : ParsedTransaction) (a : Datetime) (sms : ParsedSms)
      (smsTxn : ParsedTransaction), UndatedEmail parseEmail bank raw parsed txn a →
      sms.transaction = some smsTxn → smsTxn.transactionDate = none →
      ((processEmailFull parseEmail bank raw).txnData.map (·.transactionDate)) =
        (parsedSmsToTxnData sms a.instant).map (·.transactionDate) := by
  intro h
  have hsame := h _ _ _ _ _ _ undatedSms undatedDebit undated_lateEmail rfl rfl
  rw [processEmailFull_eq undated_lateEmail] at hsame
  exact absurd hsame (by decide)

end Backfill

end FinancialDashboard.Transactions
