import FinancialDashboard.Lib.Numerals
import FinancialDashboard.Lib.Posting
import FinancialDashboard.Paisa.Conservation
import FinancialDashboard.Paisa.Rendering
import Mathlib.Algebra.Order.BigOperators.Group.List

/-!
# Balance as printed

`checkBalanced` rounds the total of an entry, and the lines carry its amounts rounded one
by one.  What a backend adds up is what it reads back from the lines.

* `readAmount_fmtAmount`: a printed amount is read back as its cents.
* `checkBalanced_iff`: what the guard tests.
* `balancedAsPrinted_iff`: an accepted entry balances as printed if and only if the
  roundings settle; so does an opening entry.
* `balancedAsPrinted_pair`: an amount and its opposite always do.
* `half_cents_unbalanced`: two times 0.004 against 0.008 passes the guard and prints
  0.01 out of balance.
-/

namespace FinancialDashboard.Paisa

open PyText PyTime Rounding Posting

/-! ### Reading an amount back -/

/-- The number that a text of digits spells. -/
def readDigits (digits : List Char) : Nat := Nat.ofDigitChars 10 digits 0

/-- Digits, and after a point the decimals; what follows is not read. -/
def readUnsigned (text : List Char) : Rat :=
  let whole := text.takeWhile Char.isDigit
  match text.dropWhile Char.isDigit with
  | '.' :: rest =>
    let decimals := rest.takeWhile Char.isDigit
    readDigits whole + readDigits decimals / 10 ^ decimals.length
  | _ => readDigits whole

/-- The amount at the head of a text. -/
def readAmount (text : String) : Rat :=
  match text.toList with
  | '-' :: rest => -readUnsigned rest
  | rest => readUnsigned rest

/-- Digits, a point, two decimals and a blank. -/
theorem readUnsigned_decimal {whole decimals : List Char} {rest : List Char}
    (hwhole : ∀ c ∈ whole, c.isDigit = true) (hdecimals : ∀ c ∈ decimals, c.isDigit = true) :
    readUnsigned (whole ++ '.' :: (decimals ++ ' ' :: rest)) =
      readDigits whole + readDigits decimals / 10 ^ decimals.length := by
  have hpoint : ¬('.').isDigit = true := by decide
  have hblank : ¬(' ').isDigit = true := by decide
  simp only [readUnsigned, List.takeWhile_append_of_pos hwhole, List.dropWhile_append_of_pos hwhole,
    List.takeWhile_append_of_pos hdecimals, List.takeWhile_cons_of_neg hpoint,
    List.dropWhile_cons_of_neg hpoint, List.takeWhile_cons_of_neg hblank, List.append_nil]

/-- The two decimals of a whole number of cents. -/
theorem readUnsigned_cents (n : Nat) (rest : List Char) :
    readUnsigned ((toString (n / 100)).toList ++
      '.' :: ((zeroPad 2 (n % 100)).toList ++ ' ' :: rest)) = n / 100 := by
  have hlength : (toString (n % 100)).length ≤ 2 := length_toString_le (by decide) (by omega)
  rw [readUnsigned_decimal (fun c => isDigit_of_mem_toString) (fun c => isDigit_of_mem_zeroPad),
    readDigits, ofDigitChars_toString, readDigits, ofDigitChars_zeroPad, length_zeroPad hlength]
  have hsplit : (n : Rat) = 100 * (n / 100 : Nat) + (n % 100 : Nat) := by
    exact_mod_cast (Nat.div_add_mod n 100).symm
  rw [hsplit]
  ring

theorem readAmount_unsigned {text : String} (h : text.toList.head? ≠ some '-') :
    readAmount text = readUnsigned text.toList := by
  unfold readAmount
  split
  · rename_i rest htext
    rw [htext] at h
    exact absurd rfl h
  · rfl

theorem head_toString_ne {n : Nat} (rest : List Char) :
    ((toString n).toList ++ rest).head? ≠ some '-' := by
  intro h
  cases hd : (toString n).toList with
  | nil =>
    rw [Nat.toString_eq_repr, Nat.toList_repr] at hd
    exact Nat.toDigits_ne_nil hd
  | cons c cs =>
    have hdigit : c.isDigit = true := isDigit_of_mem_toString (n := n) (hd ▸ List.mem_cons_self)
    rw [hd] at h
    obtain rfl : c = '-' := Option.some.inj h
    exact absurd hdigit (by decide)

/-- **The text of an amount is read back as its cents.** -/
theorem readAmount_amountText (q : Int) (commodity : String) :
    readAmount (amountText q ++ " " ++ commodity) = q / 100 := by
  have htext : (amountText q ++ " " ++ commodity).toList = (if q < 0 then ['-'] else []) ++
      ((toString (q.natAbs / 100)).toList ++
        '.' :: ((zeroPad 2 (q.natAbs % 100)).toList ++ ' ' :: commodity.toList)) := by
    unfold amountText
    split_ifs <;> simp
  by_cases hq : q < 0
  · rw [if_pos hq, List.cons_append, List.nil_append] at htext
    have habs : (q : Rat) = -(q.natAbs : Rat) := by
      rw [Nat.cast_natAbs, abs_of_neg hq]
      push_cast
      ring
    unfold readAmount
    rw [htext]
    change -readUnsigned _ = _
    rw [readUnsigned_cents, habs, neg_div]
  · rw [if_neg hq, List.nil_append] at htext
    have habs : (q : Rat) = (q.natAbs : Rat) := by
      rw [Nat.cast_natAbs, abs_of_nonneg (not_lt.mp hq)]
    rw [readAmount_unsigned (by rw [htext]; exact head_toString_ne _), htext, readUnsigned_cents,
      habs]

/-! ### Printed amounts -/

/-- The amount that is read back where `value` is printed. -/
def printedAmount (commodity : String) (value : Rat) : Rat :=
  readAmount (amountText (cents value) ++ " " ++ commodity)

theorem printedAmount_eq (commodity : String) (value : Rat) :
    printedAmount commodity value = cents value / 100 := readAmount_amountText _ _

theorem quantizeCents_eq_ok {value : Rat} {q : Int} : quantizeCents value = .ok q ↔
    (cents value).natAbs < 10 ^ precision ∧ cents value = q := by
  unfold quantizeCents quantizeTo
  split_ifs with h
  · exact ⟨fun he => ⟨h, Except.ok.inj he⟩, fun he => congrArg _ he.2⟩
  · exact ⟨nofun, fun he => absurd he.1 h⟩

/-- **A printed amount is read back.** -/
theorem readAmount_fmtAmount {value : Rat} {commodity text : String}
    (h : fmtAmount value commodity = .ok text) : readAmount text = printedAmount commodity value := by
  obtain ⟨q, hq, h⟩ := bind_eq_ok.mp h
  obtain ⟨-, rfl⟩ := quantizeCents_eq_ok.mp hq
  obtain rfl := Except.ok.inj h
  rfl

theorem sum_printedAmount (commodity : String) (amounts : List Rat) :
    (amounts.map (printedAmount commodity)).sum = roundedTotal 100 amounts / 100 := by
  induction amounts with
  | nil => simp [roundedTotal]
  | cons a rest ih =>
    rw [List.map_cons, List.sum_cons, ih, printedAmount_eq, roundedTotal_cons, cents]
    push_cast
    ring

/-- The postings add up to zero in each commodity, as they are printed. -/
def BalancedAsPrinted (postings : List LedgerPosting) : Prop :=
  ∀ commodity, ((amountsIn commodity postings).map (printedAmount commodity)).sum = 0

/-- The postings of the opening entry: the openings that are printed, and equity. -/
def openingPostings (backend : Backend) (openings : List OpeningBalance) : List LedgerPosting :=
  (nonzeroOpenings openings).map (fun ob => ⟨ob.accountName, ob.amount, "INR"⟩) ++
    [⟨equityOpening backend, equityAmount openings, "INR"⟩]

/-! ### The guard -/

theorem checkTotal_eq_ok {postings : List LedgerPosting} {commodity : String} {u : Unit} :
    checkTotal postings commodity = .ok u ↔
      cents (decimalTotal (amountsIn commodity postings)) = 0 := by
  constructor
  · intro h
    obtain ⟨q, hq, h⟩ := bind_eq_ok.mp h
    obtain ⟨-, rfl⟩ := quantizeCents_eq_ok.mp hq
    by_contra hne
    rw [if_neg hne] at h
    exact nomatch h
  · intro h
    have hq : quantizeCents (decimalTotal (amountsIn commodity postings)) = .ok 0 :=
      quantizeCents_eq_ok.mpr ⟨by rw [h]; decide, h⟩
    exact bind_eq_ok.mpr ⟨0, hq, rfl⟩

theorem amountsIn_of_notMem {postings : List LedgerPosting} {commodity : String}
    (h : commodity ∉ postings.map (·.commodity)) : amountsIn commodity postings = [] := by
  unfold amountsIn
  rw [List.map_eq_nil_iff, List.filter_eq_nil_iff]
  intro posting hposting heq
  exact h (List.mem_map.mpr ⟨posting, hposting, of_decide_eq_true heq⟩)

/-- **What the guard tests**: in each commodity, the total rounds to no cents. -/
theorem checkBalanced_iff {entry : ProjectedEntry} : checkBalanced entry = .ok () ↔
    entry.postings ≠ [] ∧
      ∀ commodity, cents (decimalTotal (amountsIn commodity entry.postings)) = 0 := by
  unfold checkBalanced
  cases hempty : entry.postings.isEmpty with
  | true =>
    rw [if_pos rfl]
    exact ⟨nofun, fun h => absurd (List.isEmpty_iff.mp hempty) h.1⟩
  | false =>
    rw [if_neg Bool.false_ne_true]
    have hne : entry.postings ≠ [] := by
      intro hnil
      rw [hnil] at hempty
      exact Bool.noConfusion hempty
    constructor
    · intro h
      refine ⟨hne, fun commodity => ?_⟩
      obtain ⟨units, hunits, -⟩ := bind_eq_ok.mp h
      by_cases hmem : commodity ∈ entry.postings.map (·.commodity)
      · obtain ⟨u, -, hu⟩ := exists_right (forall₂_of_mapM hunits) (List.mem_eraseDups.mpr hmem)
        exact checkTotal_eq_ok.mp hu
      · -- no posting is in the commodity, and the total is that of no amounts
        rw [amountsIn_of_notMem hmem]
        decide +kernel
    · rintro ⟨-, h⟩
      obtain ⟨units, hunits⟩ := exists_mapM (l := (entry.postings.map (·.commodity)).eraseDups)
        fun commodity _ => ⟨(), checkTotal_eq_ok.mpr (h commodity)⟩
      exact bind_eq_ok.mpr ⟨units, hunits, rfl⟩

/-! ### When an accepted entry balances -/

/-- The printed amounts add up to the rounded total if and only if the roundings settle. -/
theorem sum_printed_eq_iff (commodity : String) (amounts : List Rat) :
    (amounts.map (printedAmount commodity)).sum = (cents (decimalTotal amounts) : Rat) / 100 ↔
      Settles inContext 100 amounts := by
  have hround := roundEven_total_iff inContext (by norm_num : (100 : Rat) ≠ 0) amounts
  rw [sum_printedAmount, div_left_inj' (by norm_num : (100 : Rat) ≠ 0), Int.cast_inj, eq_comm]
  exact hround

theorem cents_neg (value : Rat) : cents (-value) = -cents value := by
  rw [cents, neg_mul, roundEven_neg]
  rfl

theorem commodity_of_openingPostings {backend : Backend} {openings : List OpeningBalance}
    {posting : LedgerPosting} (h : posting ∈ openingPostings backend openings) :
    posting.commodity = "INR" := by
  rcases List.mem_append.mp h with h | h
  · obtain ⟨ob, -, rfl⟩ := List.mem_map.mp h
    rfl
  · obtain rfl := List.mem_singleton.mp h
    rfl

theorem amountsIn_openingPostings (backend : Backend) (openings : List OpeningBalance) :
    amountsIn "INR" (openingPostings backend openings) =
      (nonzeroOpenings openings).map (·.amount) ++ [equityAmount openings] := by
  have hall : (openingPostings backend openings).filter (·.commodity = "INR") =
      openingPostings backend openings :=
    List.filter_eq_self.mpr fun posting hposting =>
      decide_eq_true (commodity_of_openingPostings hposting)
  rw [amountsIn, hall, openingPostings, List.map_append, List.map_map]
  rfl

/-- **An opening entry balances as printed if and only if the roundings settle.** -/
theorem opening_balanced_iff (backend : Backend) (openings : List OpeningBalance) :
    BalancedAsPrinted (openingPostings backend openings) ↔
      Settles inContext 100 ((nonzeroOpenings openings).map (·.amount)) := by
  rw [← sum_printed_eq_iff "INR"]
  have hsum : ((amountsIn "INR" (openingPostings backend openings)).map
      (printedAmount "INR")).sum =
      (((nonzeroOpenings openings).map (·.amount)).map (printedAmount "INR")).sum -
        (cents (decimalTotal ((nonzeroOpenings openings).map (·.amount))) : Rat) / 100 := by
    rw [amountsIn_openingPostings, List.map_append, List.sum_append, List.map_singleton,
      List.sum_singleton, printedAmount_eq, equityAmount, cents_neg]
    push_cast
    ring
  constructor
  · intro h
    exact sub_eq_zero.mp (hsum.symm.trans (h "INR"))
  · intro h commodity
    by_cases hinr : commodity = "INR"
    · subst hinr
      exact hsum.trans (sub_eq_zero.mpr h)
    · have hnone : commodity ∉ (openingPostings backend openings).map (·.commodity) := by
        intro hmem
        obtain ⟨posting, hposting, heq⟩ := List.mem_map.mp hmem
        exact hinr (heq.symm.trans (commodity_of_openingPostings hposting))
      rw [amountsIn_of_notMem hnone]
      rfl

/-- **An amount and its opposite balance as printed.** -/
theorem balancedAsPrinted_pair {p q : LedgerPosting} (hcommodity : q.commodity = p.commodity)
    (hamount : q.amount = -p.amount) : BalancedAsPrinted [p, q] := by
  intro commodity
  by_cases h : p.commodity = commodity
  · have hamounts : amountsIn commodity [p, q] = [p.amount, -p.amount] := by
      simp [amountsIn, hcommodity, hamount, h]
    rw [hamounts, List.map_cons, List.map_singleton, List.sum_cons, List.sum_singleton,
      printedAmount_eq, printedAmount_eq, cents_neg]
    push_cast
    ring
  · have hnone : commodity ∉ [p, q].map (·.commodity) := by
      simpa [hcommodity] using Ne.symm h
    rw [amountsIn_of_notMem hnone]
    rfl

/-! ### Whole cents -/

/-- Whole cents of few digits are added without rounding. -/
theorem exact_of_cents {m : Int} {ns : List Int}
    (h : |m| + (ns.map abs).sum < 10 ^ precision) :
    Exact inContext (m / 100) (ns.map fun n : Int => (n / 100 : Rat)) := by
  induction ns generalizing m with
  | nil => trivial
  | cons n rest ih =>
    rw [List.map_cons, List.sum_cons] at h
    have hrest : 0 ≤ (rest.map abs).sum := List.sum_nonneg fun x hx => by
      obtain ⟨y, -, rfl⟩ := List.mem_map.mp hx
      exact abs_nonneg y
    have hadd : |m + n| ≤ |m| + |n| := abs_add_le m n
    have hsum : (m / 100 + n / 100 : Rat) = ((m + n : Int) : Rat) / 10 ^ 2 := by
      push_cast
      ring
    have hnext : ((m + n : Int) : Rat) / 10 ^ 2 = ((m + n : Int) : Rat) / 100 := by norm_num
    refine ⟨?_, ?_⟩
    · change inContext (m / 100 + n / 100) = m / 100 + n / 100
      rw [hsum]
      exact roundSig_of_lt (by omega)
    · change Exact inContext (m / 100 + n / 100) _
      rw [hsum, hnext]
      exact ih (by omega)

/-- **Whole cents settle**: what the database stores, up to totals of 28 digits. -/
theorem settles_of_cents {ns : List Int} (h : (ns.map abs).sum < 10 ^ precision) :
    Settles inContext 100 (ns.map fun n : Int => (n / 100 : Rat)) := by
  have hexact := exact_of_cents (m := 0) (by simpa using h)
  rw [Int.cast_zero, zero_div] at hexact
  refine settles_of_units (by norm_num) hexact fun a ha => ?_
  obtain ⟨n, -, rfl⟩ := List.mem_map.mp ha
  exact ⟨n, div_mul_cancel₀ _ (by norm_num)⟩

/-! ### The entries of the projection -/

theorem Opposed.balanced {postings : List LedgerPosting} (h : Opposed postings) :
    BalancedAsPrinted postings := by
  obtain ⟨p, q, rfl, hcommodity, hamount⟩ := h
  exact balancedAsPrinted_pair hcommodity hamount

/-- **Every entry that is projected balances as printed.** -/
theorem project_balanced [UnicodeTables] [TitleTables] {config : PaisaProjectionConfig}
    {books : Books} {report : Projection} (h : project config books = .ok report) :
    ∀ e ∈ report.entries, BalancedAsPrinted e.postings := by
  obtain ⟨cutover, -, accounts, batch, portfolios, hmade⟩ := project_eq_ok h
  intro e he
  rcases List.mem_append.mp (hmade.entries.mem_iff.mp he) with he | he
  · obtain ⟨emission, -, rfl⟩ := List.mem_map.mp he
    exact emission.opposed.balanced
  · exact (hmade.ofPortfolios e he).opposed.balanced

/-! ### Entries of any amounts -/

/-- **When what the guard lets through balances as printed**: in each commodity, what the
rounding takes from the amounts and adds to their running total is less than half a cent,
or half a cent where the printed cents are even in number.  The opening entry, which no
guard tests, likewise. -/
theorem balanced_as_printed_iff {entry : ProjectedEntry} (h : checkBalanced entry = .ok ())
    (backend : Backend) (openings : List OpeningBalance) :
    (BalancedAsPrinted entry.postings ↔
      ∀ commodity, Settles inContext 100 (amountsIn commodity entry.postings)) ∧
    (BalancedAsPrinted (openingPostings backend openings) ↔
      Settles inContext 100 ((nonzeroOpenings openings).map (·.amount))) := by
  refine ⟨forall_congr' fun commodity => ?_, opening_balanced_iff backend openings⟩
  rw [← sum_printed_eq_iff commodity, (checkBalanced_iff.mp h).2 commodity, Int.cast_zero, zero_div]

def rupeeEntry (amounts : List Rat) : ProjectedEntry where
  date := 737000
  payee := "Savings"
  txnIds := []
  postings := amounts.map fun amount => ⟨⟨.assets, ["Savings"]⟩, amount, "INR"⟩
  note := none
  currency := "INR"
  kind := .unknown
  details := []

def rupeeOpenings (amounts : List Rat) : List OpeningBalance :=
  amounts.map fun amount => ⟨1, ⟨.assets, ["Savings"]⟩, amount, .snapshot, 737000⟩

/-- Two amounts of less than half a cent are printed as nothing, and what offsets them as
a cent. -/
theorem half_cents_unbalanced :
    checkBalanced (rupeeEntry [4 / 1000, 4 / 1000, -8 / 1000]) = .ok () ∧
      ¬ BalancedAsPrinted (rupeeEntry [4 / 1000, 4 / 1000, -8 / 1000]).postings ∧
      ¬ BalancedAsPrinted (openingPostings .ledger (rupeeOpenings [4 / 1000, 4 / 1000])) := by
  refine ⟨by decide +kernel, fun h => ?_, fun h => ?_⟩
  · exact absurd (h "INR") (by decide +kernel)
  · exact absurd (h "INR") (by decide +kernel)

theorem balanced_as_printed_iff_rupees :
    (BalancedAsPrinted (rupeeEntry [250, -100, -150]).postings ↔
      ∀ commodity, Settles inContext 100
        (amountsIn commodity (rupeeEntry [250, -100, -150]).postings)) ∧
    (BalancedAsPrinted (openingPostings .ledger (rupeeOpenings [100, 150])) ↔
      Settles inContext 100 ((nonzeroOpenings (rupeeOpenings [100, 150])).map (·.amount))) :=
  balanced_as_printed_iff (by decide +kernel) .ledger (rupeeOpenings [100, 150])

end FinancialDashboard.Paisa
