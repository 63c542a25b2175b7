import FinancialDashboard.Transactions.Record

/-!
# Which stored row is the same event

`find_match` of `services/txn_merge.py`: given the rows of the table and one
incoming `txn_data`, it names a row to enrich, says to insert, or defers.  It goes
through three searches, each with filters of its own:

* the reference (`referenceRows`);
* the time window (`gatherFuzzyCandidates`), then the decision by balance, slot and
  reference (`decideMatch`);
* the window shifted by twelve hours (`findAmPmAliasMatch`).

`qualifiesAsExplicitMatch` is the check the manual resolution makes of one row.

A query is a filter of the rows in table order; its amounts are the stored ones, those
of the rows it returns are read back.  The evidence record `find_match` can fill for a
preview is left out: it does not affect matching.
-/

namespace FinancialDashboard.Transactions

open PyTime PyText

inductive MatchKind
  | standard | amPmAlias | refAmountMismatch
  deriving DecidableEq, Repr

inductive DeferralReason
  | referenceAmountMismatch | referenceBalanceMismatch | multipleReferenceCandidates
  | balanceAmbiguous | multipleCandidates | sourceSlotFilled | sourceSlotConflict
  deriving DecidableEq, Repr

inductive MatchDecision
  | insert
  | matched (transaction : Transaction) (kind : MatchKind)
  | deferred (kind : Option MatchKind) (reason : DeferralReason)
      (resolutionCandidateIds : List Nat)
  deriving DecidableEq

def fuzzyMatchWindowMinutes : Int := 10
def receivedTimeWindowMinutes : Int := 1

/-- The email types whose body gives the time on a 12-hour clock without AM/PM. -/
def ambiguous12hTimeEmailTypes : List String := ["icici_cc_transaction_alert"]

variable [UnicodeTables]

/-! ### Single fields -/

/-- `(reference_number or "").strip()`. -/
def strippedReference (reference : Option String) : String := strip (reference.getD "")

def normalizeCounterparty (s : Option String) : String := keepAlnum (lower (s.getD ""))

def counterpartyMatch (a b : Option String) : Bool :=
  let na := normalizeCounterparty a
  let nb := normalizeCounterparty b
  na ≠ "" && nb ≠ "" && (contains na nb || contains nb na)

/-- A mask that ends in a digit identifies a card. -/
def endsInDigit (mask : String) : Bool := mask.toList.getLast?.any (· ≠ wildcard)

/-- Both messages report the same card payment, and both parsers say that the
card mask shows it. -/
def cardPaymentMaskMatch (existing : Transaction) (txn : TxnData) : Bool :=
  let stored := normalizeMask existing.cardMask
  let incoming := normalizeMask txn.cardMask
  existing.identifiesBy = .cardMask && txn.identifiesBy = .cardMask &&
    endsInDigit stored && endsInDigit incoming &&
    (maskMatches incoming stored || maskMatches stored incoming)

omit [UnicodeTables] in
def noFieldIdentifiesTheEvent (existing : Transaction) (txn : TxnData) : Bool :=
  existing.identifiesBy = .noField && txn.identifiesBy = .noField

/-- A provider's prefix- or suffix-truncated reference. -/
def shortenedReferenceMatch (first second : Option String) : Bool :=
  let firstNorm := keepAlnum (upper (first.getD ""))
  let secondNorm := keepAlnum (upper (second.getD ""))
  4 ≤ min firstNorm.length secondNorm.length &&
    (startsWith firstNorm secondNorm || startsWith secondNorm firstNorm ||
      endsWith firstNorm secondNorm || endsWith secondNorm firstNorm)

/-! ### The time window -/

omit [UnicodeTables] in
/-- `WHERE bank = .. AND direction = .. AND amount = .. AND coalesce(currency, 'INR') = ..`. -/
def sharesKeys (txn : TxnData) (currency : String) (c : Transaction) : Bool :=
  c.bank = txn.bank && c.direction = txn.direction && c.amount = txn.amount &&
    coalesceCurrency c.currency = currency

omit [UnicodeTables] in
/-- A time that a message's arrival supplied gives a window of its own size. -/
def windowMinutes (txn : TxnData) : Int :=
  if txn.transactionTimeIsReceivedTime then receivedTimeWindowMinutes else fuzzyMatchWindowMinutes

omit [UnicodeTables] in
/-- The days the window touches; the whole day without a time. -/
def dateBounds (txn : TxnData) (date : Int) : Int × Int :=
  match txn.transactionTime with
  | some time =>
    (dateOf (combine date time - minutes (windowMinutes txn)),
      dateOf (combine date time + minutes (windowMinutes txn)))
  | none => (date, date)

omit [UnicodeTables] in
def inDateRange (bounds : Int × Int) (c : Transaction) : Bool :=
  c.transactionDate.any fun date => bounds.1 ≤ date && date ≤ bounds.2

omit [UnicodeTables] in
/-- A candidate without a time is kept for the date-only gate; one whose time is
an arrival time limits the pair from its side too. -/
def inWindow (txn : TxnData) (anchor : Int) (c : Transaction) : Bool :=
  match c.transactionDate, c.transactionTime with
  | some date, some time =>
    (!c.transactionTimeIsReceivedTime ||
        within (combine date time) receivedTimeWindowMinutes anchor) &&
      within anchor (windowMinutes txn) (combine date time)
  | _, _ => true

omit [UnicodeTables] in
def windowCandidates (rows : List Transaction) (txn : TxnData) (date : Int) (currency : String) :
    List Transaction :=
  let found := rows.filter fun c => sharesKeys txn currency c && inDateRange (dateBounds txn date) c
  match txn.transactionTime with
  | some time => found.filter (inWindow txn (combine date time))
  | none => found

/-- Only two readable account masks that disagree divide the candidates. -/
def sameAccount (txn : TxnData) (c : Transaction) : Bool :=
  let incoming := normalizeMask txn.accountMask
  let stored := normalizeMask c.accountMask
  incoming = "" || stored = "" || maskMatches incoming stored || maskMatches stored incoming

/-- The date-only gate, and counterparty narrowing of several timed candidates. -/
def narrow (txn : TxnData) (candidates : List Transaction) : List Transaction :=
  let byCp := candidates.filter fun c => counterpartyMatch c.counterparty txn.counterparty
  if txn.transactionTime.isNone || candidates.any (·.transactionTime.isNone) then
    if !byCp.isEmpty then byCp
    else
      let byMask := candidates.filter (cardPaymentMaskMatch · txn)
      if !byMask.isEmpty then byMask else candidates.filter (noFieldIdentifiesTheEvent · txn)
  else if 1 < candidates.length && !byCp.isEmpty then byCp
  else candidates

def gatherFuzzyCandidates (rows : List Transaction) (txn : TxnData)
    (currencyFilter : Option String) : List Transaction :=
  match txn.transactionDate with
  | none => []
  | some date =>
    let currency := currencyFilter.getD (currencyOrInr txn.currency)
    narrow txn ((windowCandidates rows txn date currency).filter (sameAccount txn))

/-! ### The decision on the candidates -/

/-- Two rows of one template on one channel whose references differ are two events. -/
def referencesProveDistinct (incomingRef incomingEmailType : String) (channel : Channel)
    (candidate : Transaction) : Bool :=
  let candidateRef := strippedReference candidate.referenceNumber
  candidateRef ≠ "" && incomingRef ≠ "" && candidate.emailType = incomingEmailType &&
    candidate.source = some channel.value && candidateRef ≠ incomingRef &&
    !shortenedReferenceMatch (some incomingRef) (some candidateRef)

omit [UnicodeTables] in
/-- The row the incoming message already owns. -/
def isSourceRow (candidate : Transaction) (channel : Channel) (sourceId : Option Nat) : Bool :=
  sourceId.any fun source => candidate.slot channel = some source

omit [UnicodeTables] in
/-- The authoritative split: candidates without a balance, or with this one. -/
def sameBalance (incoming : Rat) (candidates : List Transaction) : List Transaction :=
  candidates.filter fun c => c.balance.isNone || quantizeBalance c.balance = some incoming

omit [UnicodeTables] in
/-- The candidates that state this balance. -/
def equalBalance (incoming : Rat) (candidates : List Transaction) : List Transaction :=
  candidates.filter fun c => c.balance.isSome && quantizeBalance c.balance = some incoming

/-- The reference split of a message without a balance; the message's own row stays. -/
def sameReference (candidates : List Transaction) (txn : TxnData) (channel : Channel)
    (sourceId : Option Nat) : List Transaction :=
  let incomingRef := strippedReference txn.referenceNumber
  if incomingRef = "" then candidates
  else candidates.filter fun c => isSourceRow c channel sourceId ||
    !referencesProveDistinct incomingRef txn.emailType channel c

omit [UnicodeTables] in
/-- A message with a balance: one candidate that states it is the event. -/
def decideByBalance (candidates : List Transaction) (incoming : Rat) : MatchDecision :=
  match sameBalance incoming candidates with
  | [] => .insert
  | survivors =>
    match equalBalance incoming survivors with
    | [c] => .matched c .standard
    | _ => .deferred none .balanceAmbiguous (survivors.map (·.id))

omit [UnicodeTables] in
/-- A message without a balance: only the clean pair, one candidate without a
balance whose slot is open, is merged. -/
def decideBySlot (candidates : List Transaction) (channel : Channel) : MatchDecision :=
  let balanceless := candidates.filter (·.balance.isNone)
  let openBl := balanceless.filter fun c => (c.slot channel).isNone
  match candidates with
  | [] => .insert
  | c :: rest =>
    if rest.isEmpty && balanceless.length = 1 && openBl.length = 1 then .matched c .standard
    else
      let reason :=
        if !rest.isEmpty then .multipleCandidates
        else if openBl.isEmpty then .sourceSlotFilled
        else .balanceAmbiguous
      .deferred none reason (candidates.map (·.id))

/-- The balance and slot decision. -/
def decideMatch (candidates : List Transaction) (txn : TxnData) (channel : Channel)
    (sourceId : Option Nat) : MatchDecision :=
  match candidates with
  | [] => .insert
  | _ =>
    match quantizeBalance txn.balance with
    | some incoming => decideByBalance candidates incoming
    | none => decideBySlot (sameReference candidates txn channel sourceId) channel

/-! ### The explicit check -/

def normalizedCurrency (currency : Option String) : String :=
  upper (strip (currencyOrInr currency))

omit [UnicodeTables] in
/-- The matcher's date and time window, for one target; always the wide one. -/
def plausibleEventTime (target : Transaction) (txn : TxnData) : Bool :=
  match txn.transactionDate, target.transactionDate with
  | some incomingDate, some targetDate =>
    match txn.transactionTime, target.transactionTime with
    | none, _ => targetDate = incomingDate
    | some time, none =>
      let point := combine incomingDate time
      dateOf (point - minutes fuzzyMatchWindowMinutes) ≤ targetDate &&
        targetDate ≤ dateOf (point + minutes fuzzyMatchWindowMinutes)
    | some time, some targetTime =>
      within (combine incomingDate time) fuzzyMatchWindowMinutes (combine targetDate targetTime)
  | _, _ => false

/-- Whether `target` is a plausible existing row for an explicit merge. -/
def qualifiesAsExplicitMatch (rows : List Transaction) (target : Transaction) (txn : TxnData) :
    Bool :=
  if target.bank ≠ txn.bank || target.direction ≠ txn.direction || target.readAmount ≠ txn.amount ||
      normalizedCurrency target.currency ≠ normalizedCurrency txn.currency ||
      !plausibleEventTime target txn then false
  else if balancesContradict txn.balance target.balance then false
  else
    let candidates := gatherFuzzyCandidates rows txn (some (coalesceCurrency target.currency))
    candidates.any (·.id = target.id) ||
      shortenedReferenceMatch target.referenceNumber txn.referenceNumber

/-! ### The twelve-hour alias -/

omit [UnicodeTables] in
/-- Where a stored time would be that lost its AM/PM: an afternoon one twelve
hours earlier, a midnight one twelve hours later. -/
def aliasCentre (date : Int) (time : TimeOfDay) : Int :=
  if 12 ≤ time.hour then combine date time - hours 12 else combine date time + hours 12

omit [UnicodeTables] in
/-- The hours such a stored time can have. -/
def aliasHour (incoming stored : TimeOfDay) : Bool :=
  if 12 ≤ incoming.hour then 1 ≤ stored.hour && stored.hour < 12 else stored.hour = 12

omit [UnicodeTables] in
def inAliasWindow (date : Int) (time : TimeOfDay) (c : Transaction) : Bool :=
  let centre := aliasCentre date time
  match c.transactionDate, c.transactionTime with
  | some d, some t =>
    dateOf (centre - minutes fuzzyMatchWindowMinutes) ≤ d &&
      d ≤ dateOf (centre + minutes fuzzyMatchWindowMinutes) &&
      aliasHour time t && within centre fuzzyMatchWindowMinutes (combine d t)
  | _, _ => false

def aliasCandidates (rows : List Transaction) (txn : TxnData) (date : Int) (time : TimeOfDay) :
    List Transaction :=
  (rows.filter fun c => sharesKeys txn (currencyOrInr txn.currency) c &&
      c.emailType ∈ ambiguous12hTimeEmailTypes && inAliasWindow date time c).filter
    fun c => counterpartyMatch c.counterparty txn.counterparty

/-- The single candidate; a message without a counterparty has none. -/
def findAmPmAliasMatch (rows : List Transaction) (txn : TxnData) (date : Int)
    (time : TimeOfDay) : Option Transaction :=
  if txn.counterparty.getD "" = "" then none
  else
    match aliasCandidates rows txn date time with
    | [c] => some c
    | _ => none

/-! ### The match -/

/-- `WHERE bank = .. AND direction = .. AND reference_number = .. LIMIT 2`. -/
def referenceRows (rows : List Transaction) (txn : TxnData) : List Transaction :=
  let ref := strippedReference txn.referenceNumber
  if ref = "" then []
  else (rows.filter fun r => r.bank = txn.bank && r.direction = txn.direction &&
    r.referenceNumber = some ref).take 2

/-- The retry when the window has no candidate. -/
def decideAlias (rows : List Transaction) (txn : TxnData) : MatchDecision :=
  match txn.transactionDate, txn.transactionTime with
  | some date, some time =>
    match findAmPmAliasMatch rows txn date time with
    | none => .insert
    | some aliased =>
      if balancesContradict txn.balance aliased.balance then .insert
      else .matched aliased .amPmAlias
  | _, _ => .insert

/-- One row carries the reference. -/
def decideReference (row : Transaction) (txn : TxnData) : MatchDecision :=
  if row.readAmount ≠ txn.amount then
    .deferred (some .refAmountMismatch) .referenceAmountMismatch []
  else if balancesContradict txn.balance row.balance then
    .deferred (some .refAmountMismatch) .referenceBalanceMismatch []
  else .matched row .standard

def findMatch (rows : List Transaction) (txn : TxnData) (channel : Channel)
    (sourceId : Option Nat) : MatchDecision :=
  match referenceRows rows txn with
  | [row] => decideReference row txn
  | [] =>
    match gatherFuzzyCandidates rows txn none with
    | [] => decideAlias rows txn
    | candidates => decideMatch candidates txn channel sourceId
  | found =>
    .deferred none .multipleReferenceCandidates
      ((found.filter (qualifiesAsExplicitMatch rows · txn)).map (·.id))

/-! ### What a candidate has passed -/

omit [UnicodeTables] in
theorem sharesKeys_iff {txn : TxnData} {currency : String} {c : Transaction} :
    sharesKeys txn currency c = true ↔ c.bank = txn.bank ∧ c.direction = txn.direction ∧
      c.amount = txn.amount ∧ coalesceCurrency c.currency = currency := by
  simp [sharesKeys, and_assoc]

theorem mem_of_mem_narrow {txn : TxnData} {candidates : List Transaction} {c : Transaction}
    (h : c ∈ narrow txn candidates) : c ∈ candidates := by
  unfold narrow at h
  dsimp only at h
  split_ifs at h
  all_goals first | exact h | exact (List.mem_filter.mp h).1

omit [UnicodeTables] in
theorem mem_windowCandidates {rows : List Transaction} {txn : TxnData} {date : Int}
    {currency : String} {c : Transaction} (h : c ∈ windowCandidates rows txn date currency) :
    c ∈ rows ∧ sharesKeys txn currency c = true ∧ inDateRange (dateBounds txn date) c = true ∧
      ∀ time, txn.transactionTime = some time → inWindow txn (combine date time) c = true := by
  unfold windowCandidates at h
  dsimp only at h
  have hfound : ∀ {c : Transaction}, c ∈ (rows.filter fun c => sharesKeys txn currency c &&
      inDateRange (dateBounds txn date) c) → c ∈ rows ∧ sharesKeys txn currency c = true ∧
        inDateRange (dateBounds txn date) c = true := by
    intro c hc
    obtain ⟨hrows, hboth⟩ := List.mem_filter.mp hc
    rw [Bool.and_eq_true] at hboth
    exact ⟨hrows, hboth⟩
  split at h
  · rename_i time htime
    obtain ⟨hc, hin⟩ := List.mem_filter.mp h
    obtain ⟨hrows, hkeys, hrange⟩ := hfound hc
    refine ⟨hrows, hkeys, hrange, fun time' htime' => ?_⟩
    obtain rfl := Option.some.inj (htime.symm.trans htime')
    exact hin
  · rename_i hnone
    obtain ⟨hrows, hkeys, hrange⟩ := hfound h
    refine ⟨hrows, hkeys, hrange, fun time htime => ?_⟩
    rw [hnone] at htime
    cases htime

/-- **What the gates let through** shares the keys, lies in the window and may be
on the same account. -/
theorem mem_gatherFuzzyCandidates {rows : List Transaction} {txn : TxnData}
    {currencyFilter : Option String} {c : Transaction}
    (h : c ∈ gatherFuzzyCandidates rows txn currencyFilter) :
    ∃ date, txn.transactionDate = some date ∧ c ∈ rows ∧
      sharesKeys txn (currencyFilter.getD (currencyOrInr txn.currency)) c = true ∧
      inDateRange (dateBounds txn date) c = true ∧
      (∀ time, txn.transactionTime = some time → inWindow txn (combine date time) c = true) ∧
      sameAccount txn c = true := by
  unfold gatherFuzzyCandidates at h
  split at h
  · cases h
  · rename_i date hdate
    obtain ⟨hwindow, haccount⟩ := List.mem_filter.mp (mem_of_mem_narrow h)
    obtain ⟨hrows, hkeys, hrange, hin⟩ := mem_windowCandidates hwindow
    exact ⟨date, hdate, hrows, hkeys, hrange, hin, haccount⟩

/-! ### The three ways to a match -/

/-- The row alone carries the reference; amount and balance do not speak against it. -/
structure ByReference (rows : List Transaction) (txn : TxnData) (row : Transaction) : Prop where
  found : referenceRows rows txn = [row]
  amount : row.readAmount = txn.amount
  balance : balancesContradict txn.balance row.balance = false

/-- The row is the candidate the decision confirms: the one that states the
message's balance, or the one left of a message without a balance, with no balance
and an open slot. -/
def Confirms (candidates : List Transaction) (txn : TxnData) (channel : Channel)
    (sourceId : Option Nat) (row : Transaction) : Prop :=
  match quantizeBalance txn.balance with
  | some incoming => equalBalance incoming candidates = [row]
  | none => sameReference candidates txn channel sourceId = [row] ∧ row.balance = none ∧
      row.slot channel = none

structure ByWindow (rows : List Transaction) (txn : TxnData) (channel : Channel)
    (sourceId : Option Nat) (row : Transaction) : Prop where
  noReference : referenceRows rows txn = []
  confirmed : Confirms (gatherFuzzyCandidates rows txn none) txn channel sourceId row

/-- Nothing in the window, and the row is twelve hours off. -/
structure ByAlias (rows : List Transaction) (txn : TxnData) (row : Transaction) : Prop where
  noReference : referenceRows rows txn = []
  noCandidate : gatherFuzzyCandidates rows txn none = []
  found : ∃ date time, txn.transactionDate = some date ∧ txn.transactionTime = some time ∧
    findAmPmAliasMatch rows txn date time = some row
  balance : balancesContradict txn.balance row.balance = false

section

variable {rows candidates : List Transaction} {txn : TxnData} {row : Transaction}
  {kind : MatchKind} {channel : Channel} {sourceId : Option Nat}

omit [UnicodeTables] in
theorem equalBalance_sameBalance (incoming : Rat) (candidates : List Transaction) :
    equalBalance incoming (sameBalance incoming candidates) = equalBalance incoming candidates := by
  unfold equalBalance sameBalance
  rw [List.filter_filter]
  refine List.filter_congr fun c _ => ?_
  cases c.balance <;> simp

omit [UnicodeTables] in
theorem decideByBalance_eq_matched {incoming : Rat} :
    decideByBalance candidates incoming = .matched row kind ↔
      equalBalance incoming candidates = [row] ∧ kind = .standard := by
  rw [← equalBalance_sameBalance]
  unfold decideByBalance
  split
  · rename_i hempty
    simp [hempty, equalBalance]
  · split
    · rename_i c heq
      simp [heq, eq_comm]
    · rename_i hne
      constructor
      · intro h
        cases h
      · rintro ⟨h, _⟩
        exact absurd h (hne row)

omit [UnicodeTables] in
theorem decideBySlot_eq_matched :
    decideBySlot candidates channel = .matched row kind ↔
      (candidates = [row] ∧ row.balance = none ∧ row.slot channel = none) ∧ kind = .standard := by
  unfold decideBySlot
  dsimp only
  cases candidates with
  | nil => simp
  | cons c rest =>
    cases rest with
    | nil =>
      by_cases hclean : c.balance = none ∧ c.slot channel = none
      · obtain ⟨hb, hs⟩ := hclean
        simp only [hb, hs, Option.isNone_none, List.filter_cons_of_pos, List.filter_nil,
          List.isEmpty_nil, List.length_singleton, decide_true, Bool.and_self, if_true,
          MatchDecision.matched.injEq, List.cons.injEq, and_true]
        constructor
        · rintro ⟨rfl, rfl⟩
          exact ⟨⟨rfl, hb, hs⟩, rfl⟩
        · rintro ⟨⟨rfl, _, _⟩, rfl⟩
          exact ⟨rfl, rfl⟩
      · -- a balance, or a filled slot: the one candidate is deferred
        have hnot : ¬ ([c] = [row] ∧ row.balance = none ∧ row.slot channel = none) := by
          rintro ⟨h, hb, hs⟩
          obtain rfl : c = row := by simpa using h
          exact hclean ⟨hb, hs⟩
        have hopen : ([c].filter (·.balance.isNone)).filter
            (fun c => (c.slot channel).isNone) = [] := by
          rw [List.filter_eq_nil_iff]
          intro d hd
          obtain ⟨hd, hb⟩ := List.mem_filter.mp hd
          obtain rfl : d = c := by simpa using hd
          simpa using fun hs => hclean ⟨by simpa using hb, hs⟩
        constructor
        · intro h
          simp [hopen] at h
        · rintro ⟨h, _⟩
          exact absurd h hnot
    | cons d rest => simp

/-- **The decision matches exactly the confirmed candidate.** -/
theorem decideMatch_eq_matched :
    decideMatch candidates txn channel sourceId = .matched row kind ↔
      Confirms candidates txn channel sourceId row ∧ kind = .standard := by
  unfold decideMatch Confirms
  split
  · cases quantizeBalance txn.balance <;> simp [equalBalance, sameReference]
  · cases quantizeBalance txn.balance with
    | some incoming => exact decideByBalance_eq_matched
    | none => exact decideBySlot_eq_matched

omit [UnicodeTables] in
theorem decideReference_eq_matched {found : Transaction} :
    decideReference found txn = .matched row kind ↔
      (found = row ∧ found.readAmount = txn.amount ∧
        balancesContradict txn.balance found.balance = false) ∧ kind = .standard := by
  unfold decideReference
  split_ifs with hamount hbalance
  · simp [hamount]
  · simp [hbalance]
  · simp only [ne_eq, Decidable.not_not] at hamount
    simp [hamount, hbalance, eq_comm]

theorem decideAlias_eq_matched :
    decideAlias rows txn = .matched row kind ↔
      ((∃ date time, txn.transactionDate = some date ∧ txn.transactionTime = some time ∧
        findAmPmAliasMatch rows txn date time = some row) ∧
        balancesContradict txn.balance row.balance = false) ∧ kind = .amPmAlias := by
  unfold decideAlias
  cases hdate : txn.transactionDate with
  | none => simp
  | some date =>
    cases htime : txn.transactionTime with
    | none => simp
    | some time =>
      cases hfound : findAmPmAliasMatch rows txn date time with
      | none => simp [hfound]
      | some aliased =>
        constructor
        · intro h
          simp only [hfound] at h
          split_ifs at h with hbalance
          obtain ⟨rfl, rfl⟩ : aliased = row ∧ .amPmAlias = kind := by simpa using h
          exact ⟨⟨⟨date, time, rfl, rfl, hfound⟩, by simpa using hbalance⟩, rfl⟩
        · rintro ⟨⟨⟨d, t, hd, ht, hrow⟩, hbalance⟩, rfl⟩
          obtain rfl := Option.some.inj hd
          obtain rfl := Option.some.inj ht
          obtain rfl := Option.some.inj (hfound.symm.trans hrow)
          simp [hfound, hbalance]

theorem not_confirms_nil : ¬ Confirms [] txn channel sourceId row := by
  unfold Confirms
  cases quantizeBalance txn.balance <;> simp [equalBalance, sameReference]

/-- **A row is matched in one of three ways**, and only so. -/
theorem findMatch_eq_matched_iff :
    findMatch rows txn channel sourceId = .matched row kind ↔
      (ByReference rows txn row ∧ kind = .standard) ∨
        (ByWindow rows txn channel sourceId row ∧ kind = .standard) ∨
          (ByAlias rows txn row ∧ kind = .amPmAlias) := by
  unfold findMatch
  split
  · rename_i found hfound
    rw [decideReference_eq_matched]
    constructor
    · rintro ⟨⟨rfl, hamount, hbalance⟩, hkind⟩
      exact .inl ⟨⟨hfound, hamount, hbalance⟩, hkind⟩
    · rintro (⟨h, hkind⟩ | ⟨h, _⟩ | ⟨h, _⟩)
      · obtain rfl : found = row := by simpa [hfound] using h.found
        exact ⟨⟨rfl, h.amount, h.balance⟩, hkind⟩
      · exact absurd (hfound.symm.trans h.noReference) (by simp)
      · exact absurd (hfound.symm.trans h.noReference) (by simp)
  · rename_i hnone
    split
    · rename_i hempty
      rw [decideAlias_eq_matched]
      constructor
      · rintro ⟨⟨hfound, hbalance⟩, hkind⟩
        exact .inr (.inr ⟨⟨hnone, hempty, hfound, hbalance⟩, hkind⟩)
      · rintro (⟨h, _⟩ | ⟨h, _⟩ | ⟨h, hkind⟩)
        · exact absurd (hnone.symm.trans h.found) (by simp)
        · exact absurd (hempty ▸ h.confirmed) not_confirms_nil
        · exact ⟨⟨h.found, h.balance⟩, hkind⟩
    · rename_i hsome
      rw [decideMatch_eq_matched]
      constructor
      · rintro ⟨hconfirmed, hkind⟩
        exact .inr (.inl ⟨⟨hnone, hconfirmed⟩, hkind⟩)
      · rintro (⟨h, _⟩ | ⟨h, hkind⟩ | ⟨h, _⟩)
        · exact absurd (hnone.symm.trans h.found) (by simp)
        · exact ⟨h.confirmed, hkind⟩
        · exact absurd h.noCandidate hsome
  · rename_i hone hnone
    constructor
    · intro h
      cases h
    · rintro (⟨h, _⟩ | ⟨h, _⟩ | ⟨h, _⟩)
      · exact absurd h.found (hone row)
      · exact absurd h.noReference hnone
      · exact absurd h.noReference hnone

end

end FinancialDashboard.Transactions
