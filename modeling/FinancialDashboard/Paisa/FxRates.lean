import FinancialDashboard.Lib.Dict
import FinancialDashboard.Lib.PyJson
import FinancialDashboard.Lib.Rounding
import FinancialDashboard.Lib.StableCase
import FinancialDashboard.Paisa.Projection
import FinancialDashboard.Statements.Contention

/-!
# The exchange rates of the operator

The rows of the settings page go through `_validate_fx_rates` (`services/paisa/surface.py`)
into a JSON setting, come back through `_parse_fx_rates` (`services/paisa/config.py`), and
are looked up by `fx_rate_for`.

* `isLastWins_parse`: what comes back is, for each currency and day, the last row's rate.
* `fxRateFor_iff`: the rate in force is the latest on or before the day.
* `exists_normalize_iff`: the currencies that a transaction can have.
* `fx_rates_iff`: when no accepted rate is dead; the validator takes currencies that no
  transaction can have, such as those that lead with a digit.
-/

namespace FinancialDashboard.Paisa

open Dict PyJson PyText PyTime Rounding
open Statements (Amount natOf)
open Transactions (BookedTransaction)

/-! ### Reading -/

/-- What the texts are read with: `none` where the reader raises. -/
class FxReaders where
  /-- `Decimal(s)`. -/
  decimal : String → Option Amount
  /-- `dateutil.parser.parse(s).date()` on a day, from which it takes what the text leaves out. -/
  date : Int → String → Option {d : Int // IsDate d}
  /-- `str(v)` of a decoded value that is no text. -/
  str : Json → String

/-- A positive rate in ten-thousandths, of no more digits than the context keeps. -/
abbrev FxUnits := {n : ℕ // 0 < n ∧ n < 10 ^ 28}

def FxUnits.rate (units : FxUnits) : ℚ := (units.1 : ℚ) / 10000

/-- `str` of such a rate. -/
def FxUnits.text (units : FxUnits) : String :=
  toString (units.1 / 10000) ++ "." ++ zeroPad 4 (units.1 % 10000)

/-- `rate.quantize(_Q4)`, where it is positive and not too long. -/
def quantizeRate (rate : ℚ) : Option FxUnits :=
  let n := (roundEven (rate * 10000)).toNat
  if h : 0 < n ∧ n < 10 ^ 28 then some ⟨n, h⟩ else none

variable [UnicodeTables] [FxReaders]

/-- `parse_date(s)`; a blank is no date. -/
def parseFxDate (today : Int) (text : String) : Option {d : Int // IsDate d} :=
  if strip text = "" then none else FxReaders.date today (strip text)

/-! ### The validator -/

/-- `PaisaFxRateRow`. -/
structure FxRateRow where
  currency : String
  date : String
  rate : String
  deriving DecidableEq, Repr

/-- What an accepted row says. -/
structure FxQuote where
  code : String
  date : {d : Int // IsDate d}
  units : FxUnits

namespace FxQuote

/-- `FxRate` of the quote. -/
def fxRate (q : FxQuote) : FxRate := ⟨q.date.1, q.units.rate⟩

/-- `bucket.setdefault(ccy, {})[date.isoformat()] = str(quantized)`. -/
def entry (q : FxQuote) : (String × String) × String :=
  ((q.code, isoformat q.date.1), q.units.text)

end FxQuote

/-- The checks of one row; a row with a blank cell is dropped. -/
def checkFxRow (today : Int) (row : FxRateRow) : Except String (Option FxQuote) :=
  let ccy := upper (strip row.currency)
  let dateText := strip row.date
  let rateText := strip row.rate
  if ccy = "" || dateText = "" || rateText = "" then .ok none
  else if !ccy.toList.all UnicodeTables.isAlnum || 6 < ccy.length then
    .error s!"FX Rates: invalid currency {UnicodeTables.repr ccy}"
  else match parseFxDate today dateText with
    | none => .error s!"FX Rates: {ccy} date {UnicodeTables.repr dateText} is not a valid date"
    | some date =>
      match FxReaders.decimal rateText with
      | none =>
        .error s!"FX Rates: {ccy} {dateText} rate {UnicodeTables.repr rateText} is not a number"
      | some .nonFinite =>
        .error <| s!"FX Rates: {ccy} {dateText} rate must be positive, " ++
          s!"got {UnicodeTables.repr rateText}"
      | some (.finite rate) =>
        if rate ≤ 0 then
          .error <| s!"FX Rates: {ccy} {dateText} rate must be positive, " ++
            s!"got {UnicodeTables.repr rateText}"
        else match quantizeRate rate with
          | none =>
            .error <| s!"FX Rates: {ccy} {dateText} rate {UnicodeTables.repr rateText} " ++
              "is outside the supported range"
          | some units => .ok (some ⟨ccy, date, units⟩)

omit [UnicodeTables] [FxReaders] in
/-- `sorted(d.items())`. -/
def sortedItems {V : Type} (d : AList fun _ : String => V) : List (String × V) :=
  (d.entries.map fun e => (e.1, e.2)).mergeSort fun a b => a.1 ≤ b.1

omit [UnicodeTables] [FxReaders] in
/-- The nested dictionary as it is stored. -/
def storedRates (bucket : AList fun _ : String => AList fun _ : String => String) : Json :=
  .dict ((sortedItems bucket).map fun (ccy, byDate) =>
    (ccy, .list ((sortedItems byDate).map fun (date, rate) =>
      .dict [("date", .str date), ("rate", .str rate)])))

/-- `_validate_fx_rates`. -/
def validateFxRates (today : Int) (rows : List FxRateRow) : Except String Json := do
  let quotes ← rows.mapM (checkFxRow today)
  return storedRates (nest ((quotes.filterMap id).map FxQuote.entry))

/-! ### The parser -/

omit [UnicodeTables] in
/-- `str(v)`. -/
def pyStr : Json → String
  | .str s => s
  | v => FxReaders.str v

omit [UnicodeTables] [FxReaders] in
/-- `item.get(key)`. -/
def getField (fields : List (String × Json)) (key : String) : Option Json :=
  match fields.lookup key with
  | some .null => none
  | field => field

/-- One quote of a currency; what cannot be read is skipped. -/
def parseFxItem (today : Int) : Json → Option FxRate
  | .dict fields => do
    let dateRaw ← getField fields "date"
    let rateRaw ← getField fields "rate"
    let date ← parseFxDate today (pyStr dateRaw)
    match FxReaders.decimal (pyStr rateRaw) with
    | some (.finite rate) =>
      if rate ≤ 0 then none else (quantizeRate rate).map fun units => ⟨date.1, units.rate⟩
    | _ => none
  | _ => none

/-- One currency with its quotes, by date. -/
def parseFxEntry (today : Int) (field : String × Json) : Option (String × List FxRate) :=
  let ccy := upper (strip field.1)
  match field.2 with
  | .list entries =>
    let parsed := entries.filterMap (parseFxItem today)
    if ccy = "" || parsed.isEmpty then none
    else some (ccy, parsed.mergeSort fun a b => a.date ≤ b.date)
  | _ => none

/-- `_parse_fx_rates`. -/
def parseFxRates (today : Int) : Json → AList fun _ : String => List FxRate
  | .dict fields =>
    (fields.filterMap (parseFxEntry today)).foldl (fun out e => out.insert e.1 e.2) ∅
  | _ => ∅

/-! ### Laws of the readers -/

/-- The texts that `date.isoformat` and `str` make are read back. -/
class FxLaws : Prop where
  date_iso (today : Int) (d : {d : Int // IsDate d}) :
    FxReaders.date today (isoformat d.1) = some d
  decimal_text (units : FxUnits) : FxReaders.decimal units.text = some (.finite units.rate)

omit [UnicodeTables] [FxReaders] in
theorem FxUnits.rate_pos (units : FxUnits) : 0 < units.rate :=
  div_pos (Nat.cast_pos.mpr units.2.1) (by norm_num)

omit [UnicodeTables] [FxReaders] in
/-- A rate of four places is not rounded again. -/
theorem quantizeRate_rate (units : FxUnits) : quantizeRate units.rate = some units := by
  have hround : (roundEven (units.rate * 10000)).toNat = units.1 := by
    have hint : units.rate * 10000 = ((units.1 : ℤ) : ℚ) := by
      rw [FxUnits.rate, div_mul_cancel₀ _ (by norm_num), Int.cast_natCast]
    rw [hint, roundEven_intCast, Int.toNat_natCast]
  unfold quantizeRate
  simp only [hround]
  exact dif_pos units.2

omit [UnicodeTables] [FxReaders] in
theorem toList_zeroPad_ne_nil {width n : Nat} (h : 0 < width) : (zeroPad width n).toList ≠ [] := by
  intro hnil
  have hlength := congrArg List.length (toList_zeroPad width n)
  rw [hnil, List.length_append, List.length_replicate, String.length_toList] at hlength
  simp only [List.length_nil] at hlength
  omega

omit [FxReaders] in
/-- No blank at the ends of a text that begins and ends with digits. -/
theorem strip_of_digits [StableTables] {s : String} (first middle last : List Char)
    (hlist : s.toList = first ++ middle ++ last) (hfirst : first ≠ []) (hlast : last ≠ [])
    (hdigits : ∀ c ∈ first ++ last, c.isDigit = true) : strip s = s ∧ s ≠ "" := by
  have hspace : ∀ c ∈ first ++ last, UnicodeTables.isSpace c = false := fun c hc =>
    StableTables.alnum_ascii c (by rw [Char.isAlphanum, hdigits c hc, Bool.or_true])
  obtain ⟨c, rest, rfl⟩ := List.exists_cons_of_ne_nil hfirst
  have htrimmed : Trimmed s.toList := by
    refine ⟨fun e he => ?_, fun e he => ?_⟩
    · rw [hlist] at he
      obtain rfl : c = e := by simpa using he
      exact hspace c (by simp)
    · rw [hlist, List.getLast?_append_of_ne_nil _ hlast] at he
      exact hspace e (List.mem_append_right _ (List.mem_of_getLast? he))
  refine ⟨?_, ?_⟩
  · have hstrip := htrimmed.strip_eq
    rwa [String.ofList_toList] at hstrip
  · rintro rfl
    simp at hlist

omit [FxReaders] in
theorem strip_isoformat [StableTables] (d : Int) :
    strip (isoformat d) = isoformat d ∧ isoformat d ≠ "" := by
  refine strip_of_digits (zeroPad 4 (civil d).year.toNat).toList
    ('-' :: ((zeroPad 2 (civil d).month).toList ++ ['-']))
    (zeroPad 2 (civil d).day).toList (by simp [isoformat])
    (toList_zeroPad_ne_nil (by decide)) (toList_zeroPad_ne_nil (by decide)) fun c hc => ?_
  rcases List.mem_append.mp hc with hc | hc
  · exact isDigit_of_mem_zeroPad hc
  · exact isDigit_of_mem_zeroPad hc

omit [FxReaders] in
theorem strip_unitsText [StableTables] (units : FxUnits) :
    strip units.text = units.text ∧ units.text ≠ "" := by
  have hwhole : (toString (units.1 / 10000)).toList ≠ [] := by
    rw [Nat.toString_eq_repr, Nat.toList_repr]
    exact Nat.toDigits_ne_nil
  refine strip_of_digits (toString (units.1 / 10000)).toList ['.']
    (zeroPad 4 (units.1 % 10000)).toList (by simp [FxUnits.text]) hwhole
    (toList_zeroPad_ne_nil (by decide)) fun c hc => ?_
  rcases List.mem_append.mp hc with hc | hc
  · exact isDigit_of_mem_toString hc
  · exact isDigit_of_mem_zeroPad hc

/-- **A stored quote is read back.** -/
theorem parseFxItem_stored [StableTables] [FxLaws] (today : Int) (q : FxQuote) :
    parseFxItem today (.dict [("date", .str (isoformat q.date.1)), ("rate", .str q.units.text)]) =
      some q.fxRate := by
  have hdate : parseFxDate today (isoformat q.date.1) = some q.date := by
    obtain ⟨hstrip, hne⟩ := strip_isoformat q.date.1
    rw [parseFxDate, hstrip, if_neg hne, FxLaws.date_iso]
  have hfields :
      getField [("date", .str (isoformat q.date.1)), ("rate", .str q.units.text)] "date" =
        some (.str (isoformat q.date.1)) ∧
      getField [("date", .str (isoformat q.date.1)), ("rate", .str q.units.text)] "rate" =
        some (.str q.units.text) := by
    simp [getField, List.lookup_cons]
  have hpos : ¬q.units.rate ≤ 0 := not_le_of_gt q.units.rate_pos
  unfold parseFxItem
  simp only [hfields, Option.bind_eq_bind, Option.bind_some, pyStr, hdate, FxLaws.decimal_text,
    if_neg hpos, quantizeRate_rate, Option.map_some, FxQuote.fxRate]

/-! ### The bucket -/

/-- The last quote of a currency for a day. -/
def lastQuote (quotes : List FxQuote) (code : String) (day : Int) : Option FxQuote :=
  quotes.reverse.find? fun q => q.code = code ∧ q.date.1 = day

omit [UnicodeTables] [FxReaders] in
theorem lastQuote_spec {quotes : List FxQuote} {code : String} {day : Int} {q : FxQuote}
    (h : lastQuote quotes code day = some q) : q ∈ quotes ∧ q.code = code ∧ q.date.1 = day := by
  have hmem := List.mem_of_find?_eq_some h
  have hkey := List.find?_some h
  exact ⟨List.mem_reverse.mp hmem, by simpa using hkey⟩

omit [UnicodeTables] [FxReaders] in
theorem lastQuote_ne_none {quotes : List FxQuote} {q : FxQuote} (h : q ∈ quotes) :
    lastQuote quotes q.code q.date.1 ≠ none := by
  intro hnone
  rw [lastQuote, List.find?_eq_none] at hnone
  simpa using hnone q (List.mem_reverse.mpr h)

/-- The dictionary the validator fills. -/
def bucketOf (quotes : List FxQuote) : AList fun _ : String => AList fun _ : String => String :=
  nest (quotes.map FxQuote.entry)

omit [UnicodeTables] [FxReaders] in
/-- **At the text of a day it has the rate of the day's last quote.** -/
theorem lookup_bucketOf (quotes : List FxQuote) (code : String) (day : Int) :
    lookupNested (bucketOf quotes) code (isoformat day) =
      (lastQuote quotes code day).map (·.units.text) := by
  have hkey : ∀ q : FxQuote, q.entry.1 = (code, isoformat day) ↔
      q.code = code ∧ q.date.1 = day := by
    intro q
    constructor
    · intro h
      obtain ⟨hcode, hdate⟩ := Prod.mk.inj h
      exact ⟨hcode, (isoformat_inj q.date.2 hdate.symm).symm⟩
    · rintro ⟨rfl, rfl⟩
      rfl
  rw [bucketOf, lookupNested_nest, ← List.map_reverse, List.find?_map, Option.map_map, lastQuote]
  congr 2
  funext q
  simp only [Function.comp_apply, hkey]

omit [UnicodeTables] [FxReaders] in
/-- Every entry is the one of a quote. -/
theorem exists_quote_of_lookup {quotes : List FxQuote} {code iso text : String}
    (h : lookupNested (bucketOf quotes) code iso = some text) :
    ∃ q, lastQuote quotes code q.date.1 = some q ∧ q.code = code ∧ isoformat q.date.1 = iso ∧
      q.units.text = text := by
  have hfind := h
  rw [bucketOf, lookupNested_nest, Option.map_eq_some_iff] at hfind
  obtain ⟨e, he, -⟩ := hfind
  obtain ⟨q, -, rfl⟩ := List.mem_map.mp (List.mem_reverse.mp (List.mem_of_find?_eq_some he))
  have hkey : q.entry.1 = (code, iso) := by simpa using List.find?_some he
  obtain ⟨-, hiso⟩ := Prod.mk.inj hkey
  rw [← hiso, lookup_bucketOf, Option.map_eq_some_iff] at h
  obtain ⟨last, hlast, rfl⟩ := h
  obtain ⟨-, hcode', hdate⟩ := lastQuote_spec hlast
  exact ⟨last, by rw [hdate]; exact hlast, hcode', by rw [hdate]; exact hiso, rfl⟩

omit [UnicodeTables] [FxReaders] in
theorem mem_sortedItems {V : Type} {d : AList fun _ : String => V} {k : String} {v : V} :
    (k, v) ∈ sortedItems d ↔ d.lookup k = some v := by
  rw [sortedItems, List.mem_mergeSort, List.mem_map, ← Option.mem_def, AList.mem_lookup_iff]
  constructor
  · rintro ⟨⟨k', v'⟩, hmem, heq⟩
    obtain ⟨rfl, rfl⟩ := Prod.mk.inj heq
    exact hmem
  · intro hmem
    exact ⟨_, hmem, rfl⟩

omit [UnicodeTables] [FxReaders] in
theorem nodup_sortedItems {V : Type} (d : AList fun _ : String => V) :
    ((sortedItems d).map (·.1)).Nodup := by
  have hperm := (List.mergeSort_perm (d.entries.map fun e => (e.1, e.2)) fun a b => a.1 ≤ b.1).map
    (·.1)
  refine hperm.nodup_iff.mpr ?_
  rw [List.map_map]
  exact d.nodupKeys

/-! ### The round trip -/

/-- One quote as it is stored. -/
def storedItem (e : String × String) : Json := .dict [("date", .str e.1), ("rate", .str e.2)]

/-- The quotes of a currency as they come back. -/
def ratesOf (today : Int) (byDate : AList fun _ : String => String) : List FxRate :=
  (((sortedItems byDate).map storedItem).filterMap (parseFxItem today)).mergeSort
    fun a b => a.date ≤ b.date

variable [StableTables] [FxLaws] {quotes : List FxQuote} {code : String}
  {byDate : AList fun _ : String => String}

/-- What is stored of a currency. -/
theorem exists_quote_of_mem (h : (bucketOf quotes).lookup code = some byDate) {e : String × String}
    (he : e ∈ sortedItems byDate) :
    ∃ q, lastQuote quotes code q.date.1 = some q ∧ e.1 = isoformat q.date.1 ∧
      ∀ today, parseFxItem today (storedItem e) = some q.fxRate := by
  have hnested : lookupNested (bucketOf quotes) code e.1 = some e.2 := by
    rw [lookupNested, h]
    exact mem_sortedItems.mp he
  obtain ⟨q, hlast, -, hiso, htext⟩ := exists_quote_of_lookup hnested
  refine ⟨q, hlast, hiso.symm, fun today => ?_⟩
  rw [storedItem, ← hiso, ← htext]
  exact parseFxItem_stored today q

theorem mem_ratesOf (h : (bucketOf quotes).lookup code = some byDate) {today : Int} {r : FxRate} :
    r ∈ ratesOf today byDate ↔ ∃ q, lastQuote quotes code r.date = some q ∧ q.fxRate = r := by
  rw [ratesOf, List.mem_mergeSort, List.mem_filterMap]
  constructor
  · rintro ⟨item, hitem, hparse⟩
    obtain ⟨e, he, rfl⟩ := List.mem_map.mp hitem
    obtain ⟨q, hlast, -, hread⟩ := exists_quote_of_mem h he
    obtain rfl := Option.some.inj ((hread today).symm.trans hparse)
    exact ⟨q, hlast, rfl⟩
  · rintro ⟨q, hlast, rfl⟩
    have hnested := lookup_bucketOf quotes code q.fxRate.date
    rw [hlast, lookupNested, h] at hnested
    refine ⟨_, List.mem_map_of_mem (mem_sortedItems.mpr hnested), ?_⟩
    exact parseFxItem_stored today q

/-- One quote for a day, in the order of the days. -/
theorem pairwise_ratesOf (h : (bucketOf quotes).lookup code = some byDate) (today : Int) :
    (ratesOf today byDate).Pairwise (·.date < ·.date) := by
  have hsorted : (ratesOf today byDate).Pairwise fun a b => a.date ≤ b.date := by
    have hpairwise : (ratesOf today byDate).Pairwise fun a b => decide (a.date ≤ b.date) = true :=
      List.pairwise_mergeSort
        (fun a b c hab hbc => by simp only [decide_eq_true_eq] at *; omega)
        (fun a b => by simp only [Bool.or_eq_true, decide_eq_true_eq]; omega)
        (((sortedItems byDate).map storedItem).filterMap (parseFxItem today))
    exact hpairwise.imp fun hab => by simpa using hab
  have hdistinct : (ratesOf today byDate).Pairwise fun a b => a.date ≠ b.date := by
    have hperm := List.mergeSort_perm
      (((sortedItems byDate).map storedItem).filterMap (parseFxItem today))
      fun a b => a.date ≤ b.date
    refine (hperm.pairwise_iff fun hab => Ne.symm hab).mpr ?_
    rw [List.pairwise_filterMap, List.pairwise_map]
    have hkeys : (sortedItems byDate).Pairwise fun e e' => e.1 ≠ e'.1 :=
      List.pairwise_map.mp (nodup_sortedItems byDate)
    refine hkeys.imp_of_mem fun he he' hne a ha b hb => ?_
    obtain ⟨q, -, hiso, hread⟩ := exists_quote_of_mem h he
    obtain ⟨q', -, hiso', hread'⟩ := exists_quote_of_mem h he'
    obtain rfl := Option.some.inj ((hread today).symm.trans ha)
    obtain rfl := Option.some.inj ((hread' today).symm.trans hb)
    intro hdate
    refine hne ?_
    rw [hiso, hiso']
    exact congrArg isoformat hdate
  exact (hsorted.and hdistinct).imp fun hab => lt_of_le_of_ne hab.1 hab.2

/-- The map that the last of the rows decide. -/
structure IsLastWins (quotes : List FxQuote) (m : AList fun _ : String => List FxRate) : Prop where
  keys (code : String) : code ∈ m ↔ ∃ q ∈ quotes, q.code = code
  ordered (code : String) : ((m.lookup code).getD []).Pairwise (·.date < ·.date)
  mem (code : String) (r : FxRate) : r ∈ (m.lookup code).getD [] ↔
    ∃ q, lastQuote quotes code r.date = some q ∧ q.fxRate = r

omit [UnicodeTables] [FxReaders] [StableTables] [FxLaws] in
theorem mem_bucketOf : code ∈ bucketOf quotes ↔ ∃ q ∈ quotes, q.code = code := by
  constructor
  · intro h
    obtain ⟨e, he, rfl⟩ := mem_nest h
    obtain ⟨q, hq, rfl⟩ := List.mem_map.mp he
    exact ⟨q, hq, rfl⟩
  · rintro ⟨q, hq, rfl⟩
    by_contra hnot
    have hnone : (bucketOf quotes).lookup q.code = none := AList.lookup_eq_none.mpr hnot
    have hnested := lookup_bucketOf quotes q.code q.date.1
    rw [lookupNested, hnone] at hnested
    exact lastQuote_ne_none hq (Option.map_eq_none_iff.mp hnested.symm)

/-- The rows' codes are stripped and in upper case. -/
def IsCode (code : String) : Prop := code ≠ "" ∧ upper (strip code) = code

theorem parseFxEntry_stored (hcode : IsCode code)
    (h : (bucketOf quotes).lookup code = some byDate) (today : Int) :
    parseFxEntry today (code, .list ((sortedItems byDate).map storedItem)) =
      some (code, ratesOf today byDate) := by
  have hne : ((sortedItems byDate).map storedItem).filterMap (parseFxItem today) ≠ [] := by
    obtain ⟨q, hq, hq'⟩ := mem_bucketOf.mp (AList.lookup_isSome.mp (by rw [h]; rfl))
    obtain ⟨last, hlast⟩ := Option.ne_none_iff_exists'.mp (lastQuote_ne_none hq)
    have hdate := (lastQuote_spec hlast).2.2
    have hmem : last.fxRate ∈ ratesOf today byDate := by
      refine (mem_ratesOf h).mpr ⟨last, ?_, rfl⟩
      rw [← hq']
      show lastQuote quotes q.code last.date.1 = some last
      rw [hdate]
      exact hlast
    rw [ratesOf, List.mem_mergeSort] at hmem
    exact List.ne_nil_of_mem hmem
  unfold parseFxEntry
  dsimp only
  have hkept : (code = "" || (((sortedItems byDate).map storedItem).filterMap
      (parseFxItem today)).isEmpty) = false := by
    rw [List.isEmpty_eq_false_iff.mpr hne, Bool.or_false, decide_eq_false_iff_not]
    exact hcode.1
  rw [hcode.2, hkept]
  rfl

omit [UnicodeTables] [FxReaders] [StableTables] [FxLaws] in
theorem storedRates_eq (bucket : AList fun _ : String => AList fun _ : String => String) :
    storedRates bucket = .dict ((sortedItems bucket).map fun p =>
      (p.1, Json.list ((sortedItems p.2).map storedItem))) := rfl

omit [StableTables] [FxLaws] in
theorem parseFxRates_dict (today : Int) (fields : List (String × Json)) :
    parseFxRates today (.dict fields) =
      (fields.filterMap (parseFxEntry today)).foldl (fun out e => out.insert e.1 e.2) ∅ := rfl

/-- **What is stored comes back**: for each currency and day the rate of the last row. -/
theorem isLastWins_parse (hcodes : ∀ q ∈ quotes, IsCode q.code) (today : Int) :
    IsLastWins quotes (parseFxRates today (storedRates (bucketOf quotes))) := by
  have hparse : parseFxRates today (storedRates (bucketOf quotes)) =
      ((sortedItems (bucketOf quotes)).map fun p => (p.1, ratesOf today p.2)).foldl
        (fun out e => out.insert e.1 e.2) ∅ := by
    have hentries : ((sortedItems (bucketOf quotes)).map fun p =>
        (p.1, Json.list ((sortedItems p.2).map storedItem))).filterMap (parseFxEntry today) =
        (sortedItems (bucketOf quotes)).map fun p => (p.1, ratesOf today p.2) := by
      rw [List.filterMap_map, List.filterMap_eq_map_iff_forall_eq_some]
      intro p hp
      have hlookup := mem_sortedItems.mp hp
      obtain ⟨q, hq, hcode⟩ := mem_bucketOf.mp (AList.lookup_isSome.mp (by rw [hlookup]; rfl))
      have hkey : IsCode p.1 := by
        rw [← hcode]
        exact hcodes q hq
      rw [Function.comp_apply]
      exact parseFxEntry_stored hkey hlookup today
    rw [storedRates_eq, parseFxRates_dict, hentries]
  have hnodup : (((sortedItems (bucketOf quotes)).map fun p => (p.1, ratesOf today p.2)).map
      (·.1)).Nodup := by
    rw [List.map_map]
    exact nodup_sortedItems (bucketOf quotes)
  have hlookup : ∀ code rates,
      (parseFxRates today (storedRates (bucketOf quotes))).lookup code = some rates ↔
        ∃ byDate, (bucketOf quotes).lookup code = some byDate ∧ ratesOf today byDate = rates := by
    intro code rates
    rw [hparse, lookup_foldl_insert_iff hnodup, List.mem_map]
    constructor
    · rintro ⟨p, hp, heq⟩
      obtain ⟨rfl, rfl⟩ := Prod.mk.inj heq
      exact ⟨p.2, mem_sortedItems.mp hp, rfl⟩
    · rintro ⟨byDate, h, rfl⟩
      exact ⟨(code, byDate), mem_sortedItems.mpr h, rfl⟩
  have hnone : ∀ code, (bucketOf quotes).lookup code = none →
      (parseFxRates today (storedRates (bucketOf quotes))).lookup code = none := by
    intro code hcode
    by_contra hsome
    obtain ⟨rates, hrates⟩ := Option.ne_none_iff_exists'.mp hsome
    obtain ⟨byDate, h, -⟩ := (hlookup code rates).mp hrates
    rw [hcode] at h
    cases h
  refine ⟨fun code => ?_, fun code => ?_, fun code r => ?_⟩
  · rw [← mem_bucketOf, ← AList.lookup_isSome, ← AList.lookup_isSome]
    cases hcode : (bucketOf quotes).lookup code with
    | none => simp [hnone code hcode]
    | some byDate => rw [(hlookup code _).mpr ⟨byDate, hcode, rfl⟩]; rfl
  · cases hcode : (bucketOf quotes).lookup code with
    | none => rw [hnone code hcode]; exact List.Pairwise.nil
    | some byDate =>
      rw [(hlookup code _).mpr ⟨byDate, hcode, rfl⟩]
      exact pairwise_ratesOf hcode today
  · cases hcode : (bucketOf quotes).lookup code with
    | none =>
      rw [hnone code hcode]
      refine iff_of_false (List.not_mem_nil) ?_
      rintro ⟨q, hlast, -⟩
      obtain ⟨hq, hcode', -⟩ := lastQuote_spec hlast
      have hmem := mem_bucketOf.mpr ⟨q, hq, hcode'⟩
      exact AList.lookup_eq_none.mp hcode hmem
    | some byDate =>
      rw [(hlookup code _).mpr ⟨byDate, hcode, rfl⟩]
      exact mem_ratesOf hcode

/-! ### Accepted rows -/

omit [StableTables] [FxLaws] in
def rowQuote (today : Int) (row : FxRateRow) : Option FxQuote :=
  match checkFxRow today row with
  | .ok quote => quote
  | .error _ => none

omit [FxLaws] in
theorem isCode_of_check {today : Int} {row : FxRateRow} {q : FxQuote}
    (h : checkFxRow today row = .ok (some q)) : IsCode q.code := by
  unfold checkFxRow at h
  dsimp only at h
  split_ifs at h with hblank hinvalid
  · cases h
  · simp only [Bool.or_eq_true, decide_eq_true_eq, not_or] at hblank
    have hcode : q.code = upper (strip row.currency) := by
      split at h
      · cases h
      · split at h
        · cases h
        · cases h
        · split_ifs at h
          split at h
          · cases h
          · rw [← Option.some.inj (Except.ok.inj h)]
    rw [IsCode, hcode]
    exact ⟨hblank.1.1, upper_strip_again row.currency⟩

omit [StableTables] [FxLaws] in
theorem rowQuote_of_check {today : Int} {row : FxRateRow} {result : Option FxQuote}
    (h : checkFxRow today row = .ok result) : rowQuote today row = result := by
  unfold rowQuote
  rw [h]

omit [StableTables] [FxLaws] in
/-- What the validator stores. -/
theorem validate_eq_ok {today : Int} {rows : List FxRateRow} {stored : Json}
    (h : validateFxRates today rows = .ok stored) :
    storedRates (bucketOf (rows.filterMap (rowQuote today))) = stored := by
  obtain ⟨results, hresults, hstored⟩ := Posting.bind_eq_ok.mp h
  have hquotes : results.filterMap id = rows.filterMap (rowQuote today) := by
    have hrows := Posting.forall₂_of_mapM hresults
    clear hresults hstored h
    induction hrows with
    | nil => rfl
    | cons hcheck _ ih =>
      rw [List.filterMap_cons, List.filterMap_cons, rowQuote_of_check hcheck, ih]
      rfl
  rw [← hquotes]
  exact Except.ok.inj hstored

/-- The row of a quote, as the settings page sends it again. -/
def FxQuote.row (q : FxQuote) : FxRateRow := ⟨q.code, isoformat q.date.1, q.units.text⟩

/-- **What was accepted is accepted again.** -/
theorem checkFxRow_row (today : Int) {q : FxQuote} (hcode : IsCode q.code)
    (halnum : q.code.toList.all UnicodeTables.isAlnum = true) (hlength : q.code.length ≤ 6) :
    checkFxRow today q.row = .ok (some q) := by
  obtain ⟨hdate, hdateNe⟩ := strip_isoformat q.date.1
  obtain ⟨hrate, hrateNe⟩ := strip_unitsText q.units
  have hparse : parseFxDate today (isoformat q.date.1) = some q.date := by
    rw [parseFxDate, hdate, if_neg hdateNe, FxLaws.date_iso]
  have hpos : ¬q.units.rate ≤ 0 := not_le_of_gt q.units.rate_pos
  unfold checkFxRow FxQuote.row
  dsimp only
  rw [hcode.2, hdate, hrate, if_neg (by simp [hcode.1, hdateNe, hrateNe]),
    if_neg (by simp only [halnum, Bool.not_true, Bool.false_or, decide_eq_true_eq]; omega), hparse]
  dsimp only
  rw [FxLaws.decimal_text]
  dsimp only
  rw [if_neg hpos, quantizeRate_rate]

theorem validate_row (today : Int) {q : FxQuote} (hcode : IsCode q.code)
    (halnum : q.code.toList.all UnicodeTables.isAlnum = true) (hlength : q.code.length ≤ 6) :
    validateFxRates today [q.row] = .ok (storedRates (bucketOf [q])) ∧
      rowQuote today q.row = some q := by
  have hcheck := checkFxRow_row today hcode halnum hlength
  refine ⟨?_, ?_⟩
  · unfold validateFxRates
    rw [List.mapM_cons, List.mapM_nil, hcheck]
    rfl
  · exact rowQuote_of_check hcheck

/-! ### The rate in force -/

/-- The quote is the latest of the last ones on or before a day. -/
def IsInForce (quotes : List FxQuote) (code : String) (day : Int) : Option FxRate → Prop
  | none => ∀ d ≤ day, lastQuote quotes code d = none
  | some fx => fx.date ≤ day ∧ (∃ q, lastQuote quotes code fx.date = some q ∧ q.fxRate = fx) ∧
    ∀ d ≤ day, lastQuote quotes code d ≠ none → d ≤ fx.date

omit [UnicodeTables] [FxReaders] [StableTables] [FxLaws] in
/-- The loop of `fx_rate_for` keeps the latest rate so far. -/
theorem foldl_latest (rates : List FxRate) (day : Int) :
    match rates.foldl (fun chosen rate =>
      if rate.date ≤ day && chosen.all (·.date < rate.date) then some rate else chosen) none with
    | none => ∀ r ∈ rates, day < r.date
    | some fx => fx ∈ rates ∧ fx.date ≤ day ∧ ∀ r ∈ rates, r.date ≤ day → r.date ≤ fx.date := by
  induction rates using List.reverseRecOn with
  | nil =>
    intro r hr
    cases hr
  | append_singleton rates r ih =>
    rw [List.foldl_append, List.foldl_cons, List.foldl_nil]
    cases hchosen : rates.foldl (fun chosen rate =>
        if rate.date ≤ day && chosen.all (·.date < rate.date) then some rate else chosen) none with
    | none =>
      rw [hchosen] at ih
      by_cases hday : r.date ≤ day
      · simp only [hday, decide_true, Option.all_none, Bool.and_self, if_true]
        refine ⟨by simp, trivial, fun s hs hsday => ?_⟩
        rcases List.mem_append.mp hs with hs | hs
        · have := ih s hs
          omega
        · rw [List.mem_singleton.mp hs]
      · simp only [hday, decide_false, Bool.false_and]
        intro s hs
        rcases List.mem_append.mp hs with hs | hs
        · exact ih s hs
        · rw [List.mem_singleton.mp hs]
          omega
    | some fx =>
      rw [hchosen] at ih
      obtain ⟨hmem, hfx, hlatest⟩ := ih
      by_cases hnewer : r.date ≤ day ∧ fx.date < r.date
      · simp only [hnewer, decide_true, Option.all_some, Bool.and_self, if_true]
        refine ⟨by simp, trivial, fun s hs hsday => ?_⟩
        rcases List.mem_append.mp hs with hs | hs
        · have := hlatest s hs hsday
          omega
        · rw [List.mem_singleton.mp hs]
      · rw [if_neg (by simpa using hnewer)]
        refine ⟨List.mem_append_left _ hmem, hfx, fun s hs hsday => ?_⟩
        rcases List.mem_append.mp hs with hs | hs
        · exact hlatest s hs hsday
        · rw [List.mem_singleton.mp hs] at hsday ⊢
          omega

omit [FxReaders] [StableTables] [FxLaws] in
/-- **The rate in force is that of the latest row on or before the day.** -/
theorem isInForce_fxRateFor {config : PaisaProjectionConfig}
    (h : IsLastWins quotes config.fxRates) (currency : String) (day : Int) :
    IsInForce quotes (upper currency) day (config.fxRateFor currency day) := by
  have hlatest := foldl_latest ((config.fxRates.lookup (upper currency)).getD []) day
  have hmem : ∀ {d : Int}, lastQuote quotes (upper currency) d ≠ none →
      ∃ r ∈ (config.fxRates.lookup (upper currency)).getD [], r.date = d := by
    intro d hd
    obtain ⟨q, hq⟩ := Option.ne_none_iff_exists'.mp hd
    have hdate := (lastQuote_spec hq).2.2
    refine ⟨q.fxRate, (h.mem _ _).mpr ⟨q, ?_, rfl⟩, hdate⟩
    show lastQuote quotes (upper currency) q.date.1 = some q
    rw [hdate, hq]
  unfold PaisaProjectionConfig.fxRateFor
  split at hlatest
  · rename_i hnone
    rw [hnone]
    intro d hd
    by_contra hsome
    obtain ⟨r, hr, rfl⟩ := hmem hsome
    exact absurd (hlatest r hr) (not_lt_of_ge hd)
  · rename_i fx hsome
    rw [hsome]
    obtain ⟨hfx, hday, hmax⟩ := hlatest
    refine ⟨hday, (h.mem _ fx).mp hfx, fun d hd hne => ?_⟩
    obtain ⟨r, hr, rfl⟩ := hmem hne
    exact hmax r hr hd

/-! ### The currencies of transactions -/

/-- ASCII capitals and digits, a capital first. -/
def isCommodity (code : String) : Bool :=
  match code.toList with
  | [] => false
  | c :: rest => c.isUpper && rest.all fun d => d.isUpper || d.isDigit

omit [UnicodeTables] [FxReaders] [StableTables] [FxLaws] in
theorem toUpper_alnum {c : Char} (h : isAsciiAlnum c = true) :
    (c.toUpper.isUpper || c.toUpper.isDigit) = true ∧ (c.toUpper.isAlpha = true →
      c.toUpper.isUpper = true) := by
  cases hlower : c.isLower with
  | true => simp [isUpper_toUpper hlower]
  | false =>
    rw [toUpper_of_not_isLower hlower]
    simpa [isAsciiAlnum, Char.isAlphanum, isAlpha_eq, hlower] using h

omit [UnicodeTables] [FxReaders] [StableTables] [FxLaws] in
theorem kept_of_commodity {c : Char} (h : (c.isUpper || c.isDigit) = true) :
    isAsciiAlnum c = true ∧ c.toUpper = c := by
  have hlower : c.isLower = false := by
    rcases Bool.or_eq_true_iff.mp h with hupper | hdigit
    · exact isLower_of_isUpper hupper
    · simp only [Char.isDigit, Bool.and_eq_true, decide_eq_true_eq] at hdigit
      rw [Bool.eq_false_iff, Ne, isLower_iff]
      grind
  refine ⟨?_, toUpper_of_not_isLower hlower⟩
  simpa [isAsciiAlnum, Char.isAlphanum, isAlpha_eq, hlower] using h

omit [UnicodeTables] [FxReaders] [StableTables] [FxLaws] in
theorem exists_cons_of_commodity {code : String} (h : isCommodity code = true) :
    ∃ c rest, code.toList = c :: rest ∧ c.isUpper = true ∧
      ∀ d ∈ rest, (d.isUpper || d.isDigit) = true := by
  unfold isCommodity at h
  cases hlist : code.toList with
  | nil =>
    rw [hlist] at h
    cases h
  | cons c rest =>
    rw [hlist] at h
    obtain ⟨hupper, hrest⟩ := Bool.and_eq_true_iff.mp h
    exact ⟨c, rest, rfl, hupper, List.all_eq_true.mp hrest⟩

omit [UnicodeTables] [FxReaders] [StableTables] [FxLaws] in
theorem normalize_of_commodity {code : String} (h : isCommodity code = true) :
    normalizeFxCurrency code = some code := by
  obtain ⟨c, rest, hcons, hupper, hrest⟩ := exists_cons_of_commodity h
  have hall : ∀ d ∈ code.toList, isAsciiAlnum d = true ∧ d.toUpper = d := by
    intro d hd
    rw [hcons] at hd
    rcases List.mem_cons.mp hd with rfl | hd
    · exact kept_of_commodity (by rw [hupper, Bool.true_or])
    · exact kept_of_commodity (hrest d hd)
  have hsame : (code.toList.filter isAsciiAlnum).map Char.toUpper = c :: rest := by
    rw [List.filter_eq_self.mpr fun d hd => (hall d hd).1, List.map_congr_left fun d hd =>
      (hall d hd).2, List.map_id'', hcons]
    intro d
    rfl
  unfold normalizeFxCurrency
  rw [hsame]
  show (if c.isAlpha then some (String.ofList (c :: rest)) else none) = some code
  rw [if_pos (by rw [isAlpha_eq, hupper, Bool.true_or]), ← hcons, String.ofList_toList]

omit [UnicodeTables] [FxReaders] [StableTables] [FxLaws] in
/-- **The currencies that a text can be normalized to.** -/
theorem exists_normalize_iff {code : String} :
    (∃ raw, normalizeFxCurrency raw = some code) ↔ isCommodity code = true := by
  constructor
  · rintro ⟨raw, h⟩
    have hkept : ∀ d ∈ (raw.toList.filter isAsciiAlnum).map Char.toUpper,
        (d.isUpper || d.isDigit) = true ∧ (d.isAlpha = true → d.isUpper = true) := by
      intro d hd
      obtain ⟨c, hc, rfl⟩ := List.mem_map.mp hd
      exact toUpper_alnum (List.mem_filter.mp hc).2
    unfold normalizeFxCurrency at h
    split at h
    · cases h
    · rename_i c rest hcons
      split_ifs at h with halpha
      obtain rfl := Option.some.inj h
      rw [hcons] at hkept
      rw [isCommodity, String.toList_ofList]
      show (c.isUpper && rest.all fun d => d.isUpper || d.isDigit) = true
      rw [Bool.and_eq_true, List.all_eq_true]
      exact ⟨(hkept c List.mem_cons_self).2 halpha,
        fun d hd => (hkept d (List.mem_cons_of_mem c hd)).1⟩
  · exact fun h => ⟨code, normalize_of_commodity h⟩

/-! ### Dead rates -/

omit [FxReaders] [FxLaws] in
theorem upper_of_isCode (h : IsCode code) : upper code = code := by
  have hstrip : strip code = code := by
    calc strip code = strip (upper (strip code)) := by rw [h.2]
      _ = upper (strip code) := strip_upper_strip code
      _ = code := h.2
  calc upper code = upper (strip code) := by rw [hstrip]
    _ = code := h.2

/-- A purchase in a currency on a day. -/
def purchaseIn (currency : String) (day : Int) : BookedTransaction where
  bank := "hdfc"
  emailType := "spend"
  direction := "debit"
  amount := 1
  currency := some currency
  transactionDate := some day
  transactionTime := none
  counterparty := none
  cardMask := none
  accountMask := none
  referenceNumber := none
  channel := none
  balance := none
  rawDescription := none
  transactionTimeIsReceivedTime := false
  identifiesBy := .noField
  id := 1
  smsMessageId := none
  emailId := none
  source := none
  accountId := none
  cardId := none
  note := none
  category := none
  excludeFromCashflow := none

/-- A transaction can have the currency, and is priced at the rate. -/
def IsAlive (config : PaisaProjectionConfig) (code : String) (rate : Rat) : Prop :=
  (∃ raw, normalizeFxCurrency raw = some code) ∧
    ∃ t : BookedTransaction, decideFx config t = ⟨code, some rate, none⟩

omit [FxReaders] [StableTables] [FxLaws] in
/-- INR is what the rates are in. -/
theorem ne_inr_of_rate (config : PaisaProjectionConfig) (t : BookedTransaction) :
    (decideFx config t).rate ≠ none → (decideFx config t).currency ≠ "INR" := by
  unfold decideFx
  dsimp only
  split
  · exact fun h => absurd rfl h
  · split
    · exact fun h => absurd rfl h
    · split_ifs with hinr
      · exact fun h => absurd rfl h
      · exact fun h => absurd rfl h
      · split
        · exact fun h => absurd rfl h
        · exact fun _ => hinr

omit [FxReaders] [StableTables] [FxLaws] in
theorem ne_inr_of_isAlive {config : PaisaProjectionConfig} {rate : Rat}
    (h : IsAlive config code rate) : code ≠ "INR" := by
  rintro rfl
  obtain ⟨-, t, ht⟩ := h
  refine ne_inr_of_rate config t ?_ ?_
  · rw [ht]
    exact Option.some_ne_none rate
  · rw [ht]

omit [FxReaders] [StableTables] [FxLaws] in
theorem isAlive_of_fxRateFor {config : PaisaProjectionConfig} {fx : FxRate} {day : Int}
    (hpriced : config.nonInrPolicy = .priced) (hcommodity : isCommodity code = true)
    (hinr : code ≠ "INR") (h : config.fxRateFor code day = some fx) :
    IsAlive config code fx.rate := by
  obtain ⟨c, rest, hcons, hupper, -⟩ := exists_cons_of_commodity hcommodity
  have hstrip : strip code ≠ "" := by
    refine strip_ne_iff.mpr ⟨c, hcons ▸ List.mem_cons_self, ?_⟩
    exact UnicodeTables.isSpace_letter c (by rw [isAlpha_eq, hupper, Bool.true_or])
  have hnormal := normalize_of_commodity hcommodity
  refine ⟨⟨code, hnormal⟩, purchaseIn code day, ?_⟩
  have hcurrency : (purchaseIn code day).currency.getD "" = code := rfl
  have hdate : (purchaseIn code day).transactionDate.bind (config.fxRateFor code) = some fx := h
  unfold decideFx
  dsimp only
  rw [hcurrency, if_neg hstrip, hnormal]
  dsimp only
  rw [if_neg hinr, if_neg (by simp [hpriced]), hdate]

/-- What an operator may expect of the rates: the last row of each day comes back, the
latest of them is in force, and each can price some transaction. -/
structure RatesServe (quotes : List FxQuote) (config : PaisaProjectionConfig) : Prop where
  lastWins : IsLastWins quotes config.fxRates
  inForce (currency : String) (day : Int) :
    IsInForce quotes (upper currency) day (config.fxRateFor currency day)
  alive (code : String) (day : Int) (q : FxQuote) (hlast : lastQuote quotes code day = some q) :
    IsAlive config code q.units.rate

/-- **The rates serve just when the accepted currencies are commodities other than INR.** -/
theorem fx_rates_iff {today later : Int} {rows : List FxRateRow} {stored : Json}
    (h : validateFxRates today rows = .ok stored) (config : PaisaProjectionConfig) :
    RatesServe (rows.filterMap (rowQuote today))
        { config with nonInrPolicy := .priced, fxRates := parseFxRates later stored } ↔
      ∀ row ∈ rows, ∀ q ∈ rowQuote today row, isCommodity q.code = true ∧ q.code ≠ "INR" := by
  have hcodes : ∀ row ∈ rows, ∀ q ∈ rowQuote today row, IsCode q.code := by
    intro row _ q hq
    have hchecked : checkFxRow today row = .ok (some q) := by
      unfold rowQuote at hq
      split at hq
      · rename_i hcheck
        rw [hcheck, hq]
      · cases hq
    exact isCode_of_check hchecked
  set quotes := rows.filterMap (rowQuote today) with hquotes
  have hmem : ∀ q, q ∈ quotes ↔ ∃ row ∈ rows, q ∈ rowQuote today row := fun q => by
    rw [hquotes, List.mem_filterMap]
    rfl
  have hquotesCode : ∀ q ∈ quotes, IsCode q.code := by
    intro q hq
    obtain ⟨row, hrow, hrowq⟩ := (hmem q).mp hq
    exact hcodes row hrow q hrowq
  have hlastWins := isLastWins_parse hquotesCode later
  rw [validate_eq_ok h] at hlastWins
  constructor
  · intro hserve row hrow q hq
    have hmemq := (hmem q).mpr ⟨row, hrow, hq⟩
    obtain ⟨last, hlast⟩ := Option.ne_none_iff_exists'.mp (lastQuote_ne_none hmemq)
    have halive := hserve.alive q.code q.date.1 last hlast
    exact ⟨exists_normalize_iff.mp halive.1, ne_inr_of_isAlive halive⟩
  · intro hgood
    refine ⟨hlastWins, fun currency day => isInForce_fxRateFor hlastWins currency day, ?_⟩
    intro code day q hlast
    obtain ⟨hq, rfl, rfl⟩ := lastQuote_spec hlast
    obtain ⟨row, hrow, hrowq⟩ := (hmem q).mp hq
    obtain ⟨hcommodity, hinr⟩ := hgood row hrow q hrowq
    set priced : PaisaProjectionConfig :=
      { config with nonInrPolicy := .priced, fxRates := parseFxRates later stored }
    have hrates : IsLastWins quotes priced.fxRates := hlastWins
    have hforce := isInForce_fxRateFor hrates q.code q.date.1
    rw [upper_of_isCode (hcodes row hrow q hrowq)] at hforce
    cases hfx : priced.fxRateFor q.code q.date.1 with
    | none =>
      rw [hfx] at hforce
      rw [hforce q.date.1 le_rfl] at hlast
      cases hlast
    | some fx =>
      rw [hfx] at hforce
      obtain ⟨hle, ⟨q', hlast', rfl⟩, hlatest⟩ := hforce
      have hday : q'.fxRate.date = q.date.1 :=
        le_antisymm hle (hlatest q.date.1 le_rfl (by rw [hlast]; exact Option.some_ne_none q))
      rw [hday, hlast] at hlast'
      obtain rfl := Option.some.inj hlast'
      exact isAlive_of_fxRateFor rfl hcommodity hinr hfx

/-! ### Plain texts -/

/-- `YYYY-MM-DD`. -/
def isoDate (s : String) : Option {d : Int // IsDate d} :=
  match s.toList.splitOnP (· = '-') with
  | [year, month, day] => do
    let date := firstOf (12 * (← natOf year) + (← natOf month) - 1) + (← natOf day) - 1
    if h : IsDate date then some ⟨date, h⟩ else none
  | _ => none

/-- The readers of `1234.56` and `YYYY-MM-DD`, which read nothing else. -/
@[reducible] def plainFxReaders : FxReaders where
  decimal := Statements.plainDecimal
  date _ := isoDate
  str _ := ""

omit [UnicodeTables] [FxReaders] [StableTables] [FxLaws] in
theorem natOf_digits {l : List Char} (hne : l ≠ []) (h : ∀ c ∈ l, c.isDigit = true) :
    natOf l = some (Nat.ofDigitChars 10 l 0) := by
  rw [natOf, if_pos ⟨hne, List.all_eq_true.mpr h⟩, Nat.ofDigitChars_eq_foldl]

omit [UnicodeTables] [FxReaders] [StableTables] [FxLaws] in
theorem natOf_zeroPad {width : Nat} (n : Nat) (hwidth : 0 < width) :
    natOf (zeroPad width n).toList = some n := by
  rw [natOf_digits (toList_zeroPad_ne_nil hwidth) fun c hc => isDigit_of_mem_zeroPad hc,
    ofDigitChars_zeroPad]

omit [UnicodeTables] [FxReaders] [StableTables] [FxLaws] in
/-- The day of an ISO text. -/
theorem isoDate_isoformat (d : {d : Int // IsDate d}) : isoDate (isoformat d.1) = some d := by
  have hlist : (isoformat d.1).toList = (zeroPad 4 (civil d.1).year.toNat).toList ++ '-' ::
      ((zeroPad 2 (civil d.1).month).toList ++ '-' :: (zeroPad 2 (civil d.1).day).toList) := by
    simp [isoformat]
  have hdash : ∀ width n : Nat, ∀ c ∈ (zeroPad width n).toList, decide (c = '-') = false := by
    intro width n c hc
    have hdigit := isDigit_of_mem_zeroPad hc
    rw [decide_eq_false_iff_not]
    rintro rfl
    exact absurd hdigit (by decide)
  have hsplit : (isoformat d.1).toList.splitOnP (· = '-') =
      [(zeroPad 4 (civil d.1).year.toNat).toList, (zeroPad 2 (civil d.1).month).toList,
        (zeroPad 2 (civil d.1).day).toList] := by
    rw [hlist, List.splitOnP_append_cons_of_forall_mem (hdash _ _) '-' (by decide),
      List.splitOnP_append_cons_of_forall_mem (hdash _ _) '-' (by decide),
      List.splitOnP_eq_singleton (hdash _ _)]
  have hdate : firstOf (12 * ((civil d.1).year.toNat : Int) + (civil d.1).month - 1) +
      (civil d.1).day - 1 = d.1 := by
    have hmonths := isDate_iff.mp d.2
    have hyear := civil_year d.1
    have hmonth := civil_month d.1
    have hday := civil_day d.1
    have hsum : 12 * ((civil d.1).year.toNat : Int) + (civil d.1).month - 1 = monthOf d.1 := by
      omega
    rw [hsum]
    omega
  unfold isoDate
  rw [hsplit]
  simp only [natOf_zeroPad _ (by decide : 0 < 4), natOf_zeroPad _ (by decide : 0 < 2),
    Option.bind_eq_bind, Option.bind_some, hdate, dif_pos d.2]

omit [UnicodeTables] [FxReaders] [StableTables] [FxLaws] in
theorem plainDecimal_text (units : FxUnits) :
    Statements.plainDecimal units.text = some (.finite units.rate) := by
  have hwhole : ∀ c ∈ (toString (units.1 / 10000)).toList, c.isDigit = true :=
    fun c hc => isDigit_of_mem_toString hc
  have hplaces : ∀ c ∈ (zeroPad 4 (units.1 % 10000)).toList, c.isDigit = true :=
    fun c hc => isDigit_of_mem_zeroPad hc
  have hpoint : ∀ l : List Char, (∀ c ∈ l, c.isDigit = true) →
      ∀ c ∈ l, decide (c = '.') = false := by
    intro l hl c hc
    rw [decide_eq_false_iff_not]
    rintro rfl
    exact absurd (hl '.' hc) (by decide)
  have hsplit : units.text.toList.splitOnP (· = '.') =
      [(toString (units.1 / 10000)).toList, (zeroPad 4 (units.1 % 10000)).toList] := by
    have hlist : units.text.toList = (toString (units.1 / 10000)).toList ++ '.' ::
        (zeroPad 4 (units.1 % 10000)).toList := by
      simp [FxUnits.text]
    rw [hlist, List.splitOnP_append_cons_of_forall_mem (hpoint _ hwhole) '.' (by decide),
      List.splitOnP_eq_singleton (hpoint _ hplaces)]
  have hlength : (zeroPad 4 (units.1 % 10000)).toList.length = 4 :=
    length_zeroPad (length_toString_le (by decide) (Nat.mod_lt _ (by decide)))
  have hvalue : natOf ((toString (units.1 / 10000)).toList ++
      (zeroPad 4 (units.1 % 10000)).toList) = some units.1 := by
    have hscale : 10 ^ 4 = 10000 := by norm_num
    rw [natOf_digits, Nat.ofDigitChars_append, Nat.ofDigitChars_eq_ofDigitChars_zero, hlength,
      ofDigitChars_toString, ofDigitChars_zeroPad, hscale, Nat.div_add_mod]
    · simp [toList_zeroPad_ne_nil (by decide : 0 < 4)]
    · intro c hc
      rcases List.mem_append.mp hc with hc | hc
      · exact hwhole c hc
      · exact hplaces c hc
  unfold Statements.plainDecimal
  rw [hsplit]
  simp only [hvalue, hlength, FxUnits.rate]
  norm_num

omit [UnicodeTables] [FxReaders] [StableTables] [FxLaws] in
theorem plainFxLaws : @FxLaws plainFxReaders :=
  let _ := plainFxReaders
  ⟨fun _ d => isoDate_isoformat d, plainDecimal_text⟩

/-- The fifteenth of January 2026, at 83 rupees. -/
def januaryQuote (code : String) : FxQuote := ⟨code, ⟨739631, by decide⟩, ⟨830000, by decide⟩⟩

/-- A configuration with the one rate. -/
def oneRate (rates : AList fun _ : String => List FxRate) : PaisaProjectionConfig where
  selectedAccountIds := [1]
  cutoverDate := some 739617
  accountMappings := ∅
  categoryMappings := ∅
  nonInrPolicy := .skip
  ledgerCli := .ledger
  fxRates := rates
  projectInvestments := false

omit [UnicodeTables] [FxReaders] [StableTables] [FxLaws] in
theorem fx_rates_usd :
    let _ := asciiTables
    let _ := plainFxReaders
    ∃ stored, validateFxRates 739700 [⟨"USD", "2026-01-15", "83.0000"⟩] = .ok stored ∧
      RatesServe ([⟨"USD", "2026-01-15", "83.0000"⟩].filterMap (rowQuote 739700))
        { oneRate ∅ with nonInrPolicy := .priced, fxRates := parseFxRates 739800 stored } := by
  let _ := asciiTables
  let _ := plainFxReaders
  let _ := asciiStable
  let _ := plainFxLaws
  have hrow : (januaryQuote "USD").row = ⟨"USD", "2026-01-15", "83.0000"⟩ := by decide
  obtain ⟨hvalidate, hquote⟩ := validate_row (q := januaryQuote "USD") 739700
    ⟨by decide, by decide⟩ (by decide) (by decide)
  rw [hrow] at hvalidate hquote
  refine ⟨_, hvalidate, (fx_rates_iff hvalidate (oneRate ∅)).mpr fun row hr q hq => ?_⟩
  rw [List.mem_singleton.mp hr, hquote] at hq
  obtain rfl := Option.some.inj hq
  exact ⟨by decide, by decide⟩

omit [UnicodeTables] [FxReaders] [StableTables] [FxLaws] in
/-- **A currency that leads with a digit is accepted, and its rate is dead.** -/
theorem fx_rates_digit_led :
    let _ := asciiTables
    let _ := plainFxReaders
    ∃ stored, validateFxRates 739700 [⟨"1A", "2026-01-15", "83.0000"⟩] = .ok stored ∧
      (¬∃ raw, normalizeFxCurrency raw = some "1A") ∧
      ¬RatesServe ([⟨"1A", "2026-01-15", "83.0000"⟩].filterMap (rowQuote 739700))
        { oneRate ∅ with nonInrPolicy := .priced, fxRates := parseFxRates 739800 stored } := by
  let _ := asciiTables
  let _ := plainFxReaders
  let _ := asciiStable
  let _ := plainFxLaws
  have hrow : (januaryQuote "1A").row = ⟨"1A", "2026-01-15", "83.0000"⟩ := by decide
  obtain ⟨hvalidate, hquote⟩ := validate_row (q := januaryQuote "1A") 739700
    ⟨by decide, by decide⟩ (by decide) (by decide)
  rw [hrow] at hvalidate hquote
  have hnot : ¬∃ raw, normalizeFxCurrency raw = some "1A" := by
    rw [exists_normalize_iff]
    decide
  refine ⟨_, hvalidate, hnot, fun hserve => hnot ?_⟩
  have hquotes : [⟨"1A", "2026-01-15", "83.0000"⟩].filterMap (rowQuote 739700) =
      [januaryQuote "1A"] := by
    rw [List.filterMap_cons, hquote]
    rfl
  rw [hquotes] at hserve
  exact (hserve.alive "1A" 739631 (januaryQuote "1A") (by simp [lastQuote, januaryQuote])).1

end FinancialDashboard.Paisa
