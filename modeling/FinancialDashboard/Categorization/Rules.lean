import FinancialDashboard.Cashflow.Buckets

/-!
# The rules of the categorization

`match_rules` of `services/categorization/rules.py`, `resolve_direction` of `polarity.py`
and what they read a text with (`normalize.py`, `slugs.py`).

The rules are tried in order and the first that applies decides.  The direction of a
transaction leaves some categories out: `Directional` is what is left.

* `directional_resolveDirection`: what the guard of the classifier lets through.
* `merchantCategory_guarded`: what the guard of the merchant rules lets through.
* `directional_matchRules_iff`: a rule's category is possible unless one of three
  unguarded rules decides.
-/

namespace FinancialDashboard.Categorization

open PyText
open Cashflow (expenseSlugs incomeSlugs repaymentSlug creditCardPaymentSlug unknownSlug
  selfTransferSlug)

/-! ### Slugs -/

def refundSlug : String := "refund"
def feesChargesSlug : String := "fees_charges"

/-- `CREDIT_CARD_ACCOUNT_TYPE` -/
def creditCardAccountType : String := "credit_card"

/-- `CC_IMPOSSIBLE_CREDIT_SLUGS` -/
def ccImpossibleCreditSlugs : List String := [repaymentSlug, "salary", "other_income", "interest"]

/-- `DEBIT_DEFAULT` -/
def debitDefault : String := "expense"

/-- `CREDIT_DEFAULT` -/
def creditDefault : String := repaymentSlug

/-- `CC_CREDIT_DEFAULT` -/
def ccCreditDefault : String := creditCardPaymentSlug

/-! ### Texts -/

/-- A character of `[a-z0-9]`. -/
def isToken (c : Char) : Bool := ('a' ≤ c && c ≤ 'z') || ('0' ≤ c && c ≤ '9')

section

variable [UnicodeTables]

/-- `normalize_text`.  What is no token character is a blank, and a run of blanks is one. -/
def normalizeText (s : Option String) : String :=
  let blanked := (lower (s.getD "")).toList.map fun c => if isToken c then c else ' '
  String.ofList ([' '].intercalate ((blanked.splitOnP (· = ' ')).filter (· ≠ [])))

/-- `normalize_counterparty` -/
def normalizeCounterparty (s : Option String) : String := keepAlnum (lower (s.getD ""))

/-- `is_fd_counterparty` -/
def isFdCounterparty (counterparty bank : Option String) : Bool :=
  let bankNorm := lower (strip (bank.getD ""))
  bankNorm ≠ "" && lower (strip (counterparty.getD "")) = bankNorm ++ " fd"

end

def cardBillPaymentMarkers : List String :=
  ["cc payment", "credit card payment", "card payment", "bill payment", "bill repayment", "bppy",
    "bbps pmt", "payment received"]

def cardRefundMarkers : List String :=
  ["refund", "refunded", "reversal", "reversed", "chargeback", "cancellation"]

def feeReversalMarkers : List String :=
  ["fee reversal", "fee reversed", "fee refund", "fee waived", "fees reversed", "fees refund",
    "fees waived", "annual fee reversal", "annual fee reversed", "annual fee refund",
    "annual charges reversal", "annual charges reversed", "joining fee reversal",
    "joining fee reversed", "card fee reversal", "card fee reversed", "late fee reversal",
    "late fee reversed", "finance charges reversal", "finance charges reversed"]

def dividendMarkers : List String := ["dividend", "div", "divd"]

/-- `_has_marker`: the marker, as whole words of the text. -/
def hasMarker (textNorm : String) (markers : List String) : Bool :=
  markers.any fun marker => contains (" " ++ marker ++ " ") (" " ++ textNorm ++ " ")

/-! ### The rules -/

/-- The fields of a transaction that the rules read. -/
structure Fields where
  counterparty : Option String
  rawDescription : Option String
  channel : Option String
  emailType : Option String
  direction : String
  bank : Option String
  accountType : Option String

structure RuleConfig where
  selfNameTokens : List String
  merchantRules : List (String × String)

structure RuleResult where
  slug : String
  confidence : ℚ
  deriving DecidableEq, Repr

namespace Fields

variable [UnicodeTables] (fields : Fields)

/-- The counterparty and the narration, normalized. -/
def textNorm : String :=
  normalizeText (some (" ".intercalate
    ([fields.counterparty, fields.rawDescription].filterMap fun s => s.filter (· ≠ ""))))

/-- `(fields.get("direction") or "").lower()` -/
def directionNorm : String := lower fields.direction

/-- `(fields.get("channel") or "").lower()` -/
def channelNorm : String := lower (fields.channel.getD "")

/-- `(fields.get("email_type") or "").lower()` -/
def emailTypeNorm : String := lower (fields.emailType.getD "")

/-- The label of a fixed deposit. -/
def isFd : Bool := isFdCounterparty fields.counterparty fields.bank

/-- An alert of a purchase with a credit card. -/
def isCcSpend : Bool := contains "spent on" fields.textNorm && contains "credit card" fields.textNorm

def isCardCredit : Bool :=
  fields.directionNorm = "credit" && fields.accountType = some creditCardAccountType

/-- Interest earned, by its channel. -/
def isInterest : Bool := fields.channelNorm = "interest" && fields.directionNorm ≠ "debit"

/-- The email type is that of a refund on a card. -/
def isCcRefund : Bool := contains "cc_refund" fields.emailTypeNorm

/-- The email type is that of a payment of a card's bill. -/
def isCcPayment : Bool :=
  contains "cc_payment" fields.emailTypeNorm || contains "cc_bill_paid" fields.emailTypeNorm ||
    contains "cc_smartpay" fields.emailTypeNorm

/-- The narration of a credit that takes a fee back. -/
def isFeeReversal : Bool :=
  fields.directionNorm = "credit" && hasMarker fields.textNorm feeReversalMarkers

def isCardRefund : Bool := fields.isCardCredit && hasMarker fields.textNorm cardRefundMarkers

def isCardBillPayment : Bool :=
  fields.isCardCredit &&
    (hasMarker fields.textNorm cardBillPaymentMarkers || startsWith fields.textNorm "payment ")

def isDividend : Bool :=
  fields.directionNorm = "credit" && !fields.isCardCredit && hasMarker fields.textNorm dividendMarkers

/-- An ACH credit, by its channel or its narration. -/
def isAchCredit : Bool :=
  fields.directionNorm = "credit" && !fields.isCardCredit &&
    (fields.channelNorm = "ach_credit" || startsWith fields.textNorm "ach c ")

/-- A merchant rule is not passed over, and its pattern is in the text. -/
def merchantRuleApplies (rule : String × String) : Bool :=
  !(fields.isCcSpend && rule.2 = "credit_card_payment") &&
    !(fields.directionNorm = "credit" && rule.2 ∈ expenseSlugs) &&
    !(fields.directionNorm = "debit" && rule.2 ∈ incomeSlugs) && contains rule.1 fields.textNorm

/-- The category of the first merchant rule that applies. -/
def merchantCategory (config : RuleConfig) : Option String :=
  (config.merchantRules.find? fields.merchantRuleApplies).map Prod.snd

/-- A token of the account holder's is in the counterparty. -/
def isSelf (config : RuleConfig) : Bool :=
  (config.selfNameTokens.map fun token => normalizeCounterparty (some token)).any fun token =>
    token ≠ "" && contains token (normalizeCounterparty fields.counterparty)

end Fields

variable [UnicodeTables]

/-- `match_rules` -/
def matchRules (fields : Fields) (config : RuleConfig) : Option RuleResult :=
  if fields.isFd then
    if fields.directionNorm = "credit" then some ⟨"investment_redemption", 95 / 100⟩
    else some ⟨"investment", 95 / 100⟩
  else if fields.isInterest then some ⟨"interest", 1⟩
  else if fields.isCcRefund then some ⟨"refund", 9 / 10⟩
  else if fields.isCcPayment then some ⟨"credit_card_payment", 95 / 100⟩
  else if fields.isFeeReversal then some ⟨"fees_charges", 9 / 10⟩
  else if fields.isCardRefund then some ⟨refundSlug, 9 / 10⟩
  else if fields.isCardBillPayment then some ⟨creditCardPaymentSlug, 95 / 100⟩
  else if fields.isDividend then some ⟨"other_income", 9 / 10⟩
  else match fields.merchantCategory config with
    | some category =>
      if category = "investment" ∧ fields.directionNorm = "credit" then
        some ⟨"investment_redemption", 9 / 10⟩
      else some ⟨category, 9 / 10⟩
    | none =>
      if fields.isAchCredit then some ⟨"other_income", 9 / 10⟩
      else if fields.isSelf config then some ⟨"self_transfer", 9 / 10⟩
      else if fields.isCardCredit then some ⟨creditCardPaymentSlug, 7 / 10⟩
      else none

/-! ### The direction guard -/

structure DirectionResult where
  slug : String
  changed : Bool
  deriving DecidableEq, Repr

omit [UnicodeTables] in
/-- `resolve_direction` -/
def resolveDirection (slug direction : String) (accountType : Option String) : DirectionResult :=
  if direction = "debit" then
    if slug ∈ incomeSlugs ∨ slug = unknownSlug then ⟨debitDefault, true⟩ else ⟨slug, false⟩
  else if direction = "credit" then
    if accountType = some creditCardAccountType then
      if slug ∈ expenseSlugs ∨ slug ∈ ccImpossibleCreditSlugs ∨ slug = unknownSlug then
        ⟨ccCreditDefault, true⟩
      else ⟨slug, false⟩
    else if slug ∈ expenseSlugs ∨ slug = unknownSlug then ⟨creditDefault, true⟩
    else ⟨slug, false⟩
  else ⟨slug, false⟩

/-- The category is possible for the direction of the transaction and its account; a fee
that is taken back is a credit among the expenses. -/
structure Directional (fields : Fields) (slug : String) : Prop where
  debit : fields.direction = "debit" → slug ∉ incomeSlugs
  credit : fields.direction = "credit" → slug ∈ expenseSlugs →
    slug = feesChargesSlug ∧ hasMarker fields.textNorm feeReversalMarkers = true
  card : fields.direction = "credit" → fields.accountType = some creditCardAccountType →
    slug ∉ ccImpossibleCreditSlugs

section

omit [UnicodeTables]

theorem debitDefault_notMem : debitDefault ∉ incomeSlugs := by decide

theorem creditDefault_notMem : creditDefault ∉ expenseSlugs := by decide

theorem ccCreditDefault_notMem :
    ccCreditDefault ∉ expenseSlugs ∧ ccCreditDefault ∉ ccImpossibleCreditSlugs := by decide

end

variable {fields : Fields} {config : RuleConfig} {result : RuleResult} {slug category : String}

theorem directional_iff_of_debit (h : fields.direction = "debit") :
    Directional fields slug ↔ slug ∉ incomeSlugs :=
  ⟨fun hd => hd.debit h, fun hs =>
    { debit := fun _ => hs
      credit := fun hc => absurd (h.symm.trans hc) (by decide)
      card := fun hc => absurd (h.symm.trans hc) (by decide) }⟩

theorem directional_iff_of_credit (h : fields.direction = "credit") :
    Directional fields slug ↔
      (slug ∈ expenseSlugs →
        slug = feesChargesSlug ∧ hasMarker fields.textNorm feeReversalMarkers = true) ∧
      (fields.accountType = some creditCardAccountType → slug ∉ ccImpossibleCreditSlugs) :=
  ⟨fun hd => ⟨hd.credit h, hd.card h⟩, fun hs =>
    { debit := fun hc => absurd (h.symm.trans hc) (by decide)
      credit := fun _ => hs.1
      card := fun _ => hs.2 }⟩

/-- **What the direction guard lets through is possible.** -/
theorem directional_resolveDirection (slug : String)
    (hdirection : fields.direction = "debit" ∨ fields.direction = "credit") :
    Directional fields (resolveDirection slug fields.direction fields.accountType).slug := by
  unfold resolveDirection
  rcases hdirection with h | h
  · rw [directional_iff_of_debit h, if_pos h]
    split_ifs with hs
    · exact debitDefault_notMem
    · exact fun hmem => hs (.inl hmem)
  · rw [directional_iff_of_credit h, if_neg (by rw [h]; decide), if_pos h]
    by_cases hcard : fields.accountType = some creditCardAccountType
    · rw [if_pos hcard]
      split_ifs with hs
      · exact ⟨fun hmem => absurd hmem ccCreditDefault_notMem.1,
          fun _ => ccCreditDefault_notMem.2⟩
      · exact ⟨fun hmem => absurd (.inl hmem) hs, fun _ hmem => hs (.inr (.inl hmem))⟩
    · rw [if_neg hcard]
      refine ⟨fun hmem => ?_, fun hc => absurd hc hcard⟩
      split_ifs at hmem with hs
      · exact absurd hmem creditDefault_notMem
      · exact absurd (.inl hmem) hs

/-! ### Which rules are guarded -/

/-- A rule before the merchant rules decides. -/
def decidedBefore (fields : Fields) : Prop :=
  fields.isFd ∨ fields.isInterest ∨ fields.isCcRefund ∨ fields.isCcPayment ∨
    fields.isFeeReversal ∨ fields.isCardRefund ∨ fields.isCardBillPayment ∨ fields.isDividend

/-- The rule that decides looks at the direction or the account too little: interest on a
credit card, a card's refund on a debit, or a merchant rule that names what a card cannot
be credited with. -/
inductive Unguarded (fields : Fields) (config : RuleConfig) : Prop
  | interest : fields.isFd = false → fields.isInterest = true → fields.direction = "credit" →
      fields.accountType = some creditCardAccountType → Unguarded fields config
  | refund : fields.isFd = false → fields.isCcRefund = true → fields.direction = "debit" →
      Unguarded fields config
  | merchant (category : String) : ¬ decidedBefore fields → fields.direction = "credit" →
      fields.accountType = some creditCardAccountType →
      fields.merchantCategory config = some category → category ∈ ccImpossibleCreditSlugs →
      Unguarded fields config

theorem directionNorm_of_debit (h : fields.direction = "debit") : fields.directionNorm = "debit" := by
  rw [Fields.directionNorm, h, lower_of_ascii (by simp)]
  decide

theorem directionNorm_of_credit (h : fields.direction = "credit") :
    fields.directionNorm = "credit" := by
  rw [Fields.directionNorm, h, lower_of_ascii (by simp)]
  decide

/-- What is known of the merchant rule that decides. -/
theorem merchantCategory_guarded (h : fields.merchantCategory config = some category) :
    (fields.directionNorm = "credit" → category ∉ expenseSlugs) ∧
      (fields.directionNorm = "debit" → category ∉ incomeSlugs) := by
  obtain ⟨rule, hrule, rfl⟩ := Option.map_eq_some_iff.mp h
  have happlies := List.find?_some hrule
  simp only [Fields.merchantRuleApplies, Bool.and_eq_true, Bool.not_eq_true',
    Bool.and_eq_false_iff, decide_eq_false_iff_not] at happlies
  obtain ⟨⟨⟨-, hexpense⟩, hincome⟩, -⟩ := happlies
  exact ⟨fun hd => hexpense.resolve_left (not_not.mpr hd),
    fun hd => hincome.resolve_left (not_not.mpr hd)⟩

/-- **On a debit** only the refund of a card is unguarded. -/
theorem directional_iff_debit (hdirection : fields.direction = "debit")
    (h : matchRules fields config = some result) :
    Directional fields result.slug ↔ ¬ Unguarded fields config := by
  have hnorm := directionNorm_of_debit hdirection
  have hnot : fields.directionNorm ≠ "credit" := by rw [hnorm]; decide
  have hinterest : fields.isInterest = false := by simp [Fields.isInterest, hnorm]
  have hcard : fields.isCardCredit = false := by simp [Fields.isCardCredit, hnot]
  have hunguarded : Unguarded fields config ↔ fields.isFd = false ∧ fields.isCcRefund = true := by
    constructor
    · rintro (⟨-, -, hc, -⟩ | ⟨hfd, hrefund, -⟩ | ⟨_, -, hc, -⟩)
      · exact absurd (hdirection.symm.trans hc) (by decide)
      · exact ⟨hfd, hrefund⟩
      · exact absurd (hdirection.symm.trans hc) (by decide)
    · exact fun ⟨hfd, hrefund⟩ => .refund hfd hrefund hdirection
  rw [directional_iff_of_debit hdirection, hunguarded]
  unfold matchRules at h
  simp only [Fields.isFeeReversal, Fields.isCardRefund, Fields.isCardBillPayment,
    Fields.isDividend, Fields.isAchCredit, hinterest, hcard, hnot, decide_false, Bool.false_and,
    Bool.false_eq_true, if_false, and_false] at h
  by_cases hfd : fields.isFd = true
  · rw [if_pos hfd] at h
    obtain rfl := Option.some.inj h
    exact iff_of_true (by decide) fun hu => absurd (hfd.symm.trans hu.1) (by decide)
  rw [if_neg hfd] at h
  by_cases hrefund : fields.isCcRefund = true
  · rw [if_pos hrefund] at h
    obtain rfl := Option.some.inj h
    exact iff_of_false (by decide) fun hn => hn ⟨Bool.not_eq_true _ ▸ hfd, hrefund⟩
  rw [if_neg hrefund] at h
  refine iff_of_true ?_ fun hu => hrefund hu.2
  by_cases hpayment : fields.isCcPayment = true
  · rw [if_pos hpayment] at h
    obtain rfl := Option.some.inj h
    decide
  rw [if_neg hpayment] at h
  cases hmerchant : fields.merchantCategory config with
  | some category =>
    rw [hmerchant] at h
    obtain rfl := Option.some.inj h
    exact (merchantCategory_guarded hmerchant).2 hnorm
  | none =>
    rw [hmerchant] at h
    by_cases hself : fields.isSelf config = true
    · obtain rfl := Option.some.inj ((if_pos hself).symm.trans h)
      decide
    · cases (if_neg hself).symm.trans h

/-- A category that no card is credited with, and that is no expense, is possible. -/
theorem possible_on_credit (hdirection : fields.direction = "credit")
    (hexpense : slug ∉ expenseSlugs) (hcard : slug ∉ ccImpossibleCreditSlugs) :
    Directional fields slug :=
  (directional_iff_of_credit hdirection).mpr ⟨fun h => absurd h hexpense, fun _ => hcard⟩

/-- Where the merchant rules are not asked, only interest is unguarded. -/
theorem not_unguarded_of_before (hdirection : fields.direction = "credit")
    (hbefore : decidedBefore fields) (hinterest : fields.isFd = false → fields.isInterest = true →
      fields.accountType ≠ some creditCardAccountType) : ¬ Unguarded fields config := by
  rintro (⟨hfd, hint, -, hacct⟩ | ⟨-, -, hd⟩ | ⟨_, hnot, -, -⟩)
  · exact hinterest hfd hint hacct
  · exact absurd (hdirection.symm.trans hd) (by decide)
  · exact hnot hbefore

/-- Where they are asked, only they are. -/
theorem unguarded_iff_of_not_before (hdirection : fields.direction = "credit")
    (hbefore : ¬ decidedBefore fields) : Unguarded fields config ↔
      fields.accountType = some creditCardAccountType ∧ ∃ category,
        fields.merchantCategory config = some category ∧ category ∈ ccImpossibleCreditSlugs := by
  constructor
  · rintro (⟨-, hint, -, -⟩ | ⟨-, hrefund, -⟩ | ⟨category, -, -, hacct, hcategory, hmem⟩)
    · exact absurd (.inr (.inl hint)) hbefore
    · exact absurd (.inr (.inr (.inl hrefund))) hbefore
    · exact ⟨hacct, category, hcategory, hmem⟩
  · rintro ⟨hacct, category, hcategory, hmem⟩
    exact .merchant category hbefore hdirection hacct hcategory hmem

theorem isCardCredit_of_credit (hnorm : fields.directionNorm = "credit") :
    fields.isCardCredit = decide (fields.accountType = some creditCardAccountType) := by
  simp [Fields.isCardCredit, hnorm]

/-- No expense is possible on an account that is no card. -/
theorem possible_off_card (hdirection : fields.direction = "credit")
    (hexpense : slug ∉ expenseSlugs)
    (hacct : fields.accountType ≠ some creditCardAccountType) : Directional fields slug :=
  (directional_iff_of_credit hdirection).mpr
    ⟨fun hmem => absurd hmem hexpense, fun ha => absurd ha hacct⟩

/-- A rule in front of the merchant rules decides. -/
theorem directional_iff_of_before (hdirection : fields.direction = "credit")
    (hbefore : decidedBefore fields) (h : matchRules fields config = some result) :
    Directional fields result.slug ↔ ¬ Unguarded fields config := by
  have hnorm := directionNorm_of_credit hdirection
  have hcard := isCardCredit_of_credit hnorm
  unfold matchRules at h
  by_cases hfd : fields.isFd = true
  · rw [if_pos hfd, if_pos hnorm] at h
    obtain rfl := Option.some.inj h
    exact iff_of_true (possible_on_credit hdirection (by decide) (by decide))
      (not_unguarded_of_before hdirection hbefore fun hf => absurd (hfd.symm.trans hf) (by decide))
  rw [if_neg hfd] at h
  by_cases hint : fields.isInterest = true
  · rw [if_pos hint] at h
    obtain rfl := Option.some.inj h
    by_cases hacct : fields.accountType = some creditCardAccountType
    · rw [directional_iff_of_credit hdirection]
      exact iff_of_false (fun hd => hd.2 hacct (by decide))
        fun hn => hn (.interest ((Bool.not_eq_true _).mp hfd) hint hdirection hacct)
    · exact iff_of_true (possible_off_card hdirection (by decide) hacct)
        (not_unguarded_of_before hdirection hbefore fun _ _ => hacct)
  rw [if_neg hint] at h
  refine iff_of_true ?_ (not_unguarded_of_before hdirection hbefore fun _ hi => absurd hi hint)
  by_cases hrefund : fields.isCcRefund = true
  · rw [if_pos hrefund] at h
    obtain rfl := Option.some.inj h
    exact possible_on_credit hdirection (by decide) (by decide)
  rw [if_neg hrefund] at h
  by_cases hpayment : fields.isCcPayment = true
  · rw [if_pos hpayment] at h
    obtain rfl := Option.some.inj h
    exact possible_on_credit hdirection (by decide) (by decide)
  rw [if_neg hpayment] at h
  by_cases hfee : fields.isFeeReversal = true
  · rw [if_pos hfee] at h
    obtain rfl := Option.some.inj h
    have hmarker : hasMarker fields.textNorm feeReversalMarkers = true :=
      (Bool.and_eq_true_iff.mp hfee).2
    exact (directional_iff_of_credit hdirection).mpr
      ⟨fun _ => ⟨rfl, hmarker⟩, fun _ => by decide⟩
  rw [if_neg hfee] at h
  by_cases hcardRefund : fields.isCardRefund = true
  · rw [if_pos hcardRefund] at h
    obtain rfl := Option.some.inj h
    exact possible_on_credit hdirection (by decide) (by decide)
  rw [if_neg hcardRefund] at h
  by_cases hbill : fields.isCardBillPayment = true
  · rw [if_pos hbill] at h
    obtain rfl := Option.some.inj h
    exact possible_on_credit hdirection (by decide) (by decide)
  rw [if_neg hbill] at h
  have hdividend : fields.isDividend = true := by
    rcases hbefore with hx | hx | hx | hx | hx | hx | hx | hx
    exacts [absurd hx hfd, absurd hx hint, absurd hx hrefund, absurd hx hpayment, absurd hx hfee,
      absurd hx hcardRefund, absurd hx hbill, hx]
  rw [if_pos hdividend] at h
  obtain rfl := Option.some.inj h
  simp only [Fields.isDividend, hcard, Bool.and_eq_true, Bool.not_eq_true',
    decide_eq_false_iff_not] at hdividend
  exact possible_off_card hdirection (by decide) hdividend.1.2

/-- A merchant rule decides, or one behind them. -/
theorem directional_iff_of_not_before (hdirection : fields.direction = "credit")
    (hbefore : ¬ decidedBefore fields) (h : matchRules fields config = some result) :
    Directional fields result.slug ↔ ¬ Unguarded fields config := by
  have hnorm := directionNorm_of_credit hdirection
  have hcard := isCardCredit_of_credit hnorm
  rw [unguarded_iff_of_not_before hdirection hbefore]
  obtain ⟨hfd, hint, hrefund, hpayment, hfee, hcardRefund, hbill, hdividend⟩ :
      ¬ fields.isFd = true ∧ ¬ fields.isInterest = true ∧ ¬ fields.isCcRefund = true ∧
        ¬ fields.isCcPayment = true ∧ ¬ fields.isFeeReversal = true ∧
        ¬ fields.isCardRefund = true ∧ ¬ fields.isCardBillPayment = true ∧
        ¬ fields.isDividend = true := by
    simpa only [decidedBefore, not_or] using hbefore
  unfold matchRules at h
  rw [if_neg hfd, if_neg hint, if_neg hrefund, if_neg hpayment, if_neg hfee, if_neg hcardRefund,
    if_neg hbill, if_neg hdividend] at h
  cases hmerchant : fields.merchantCategory config with
  | some category =>
    rw [hmerchant] at h
    have hexpense := (merchantCategory_guarded hmerchant).1 hnorm
    have hsome : (∃ c, some category = some c ∧ c ∈ ccImpossibleCreditSlugs) ↔
        category ∈ ccImpossibleCreditSlugs := by
      constructor
      · rintro ⟨c, hc, hmem⟩
        exact Option.some.inj hc ▸ hmem
      · exact fun hmem => ⟨category, rfl, hmem⟩
    rw [hsome, not_and]
    by_cases hinvest : category = "investment"
    · obtain rfl := Option.some.inj ((if_pos ⟨hinvest, hnorm⟩).symm.trans h)
      exact iff_of_true (possible_on_credit hdirection (by decide) (by decide))
        fun _ => hinvest ▸ by decide
    · obtain rfl := Option.some.inj ((if_neg fun hi => hinvest hi.1).symm.trans h)
      rw [directional_iff_of_credit hdirection]
      exact ⟨fun hd => hd.2, fun ha => ⟨fun hmem => absurd hmem hexpense, ha⟩⟩
  | none =>
    rw [hmerchant] at h
    refine iff_of_true ?_ fun hmerchantRule => ?_
    swap
    · obtain ⟨-, _, hnone, -⟩ := hmerchantRule
      cases hnone
    dsimp only at h
    by_cases hach : fields.isAchCredit = true
    · rw [if_pos hach] at h
      obtain rfl := Option.some.inj h
      simp only [Fields.isAchCredit, hcard, Bool.and_eq_true, Bool.not_eq_true',
        decide_eq_false_iff_not] at hach
      exact possible_off_card hdirection (by decide) hach.1.2
    rw [if_neg hach] at h
    by_cases hself : fields.isSelf config = true
    · rw [if_pos hself] at h
      obtain rfl := Option.some.inj h
      exact possible_on_credit hdirection (by decide) (by decide)
    rw [if_neg hself] at h
    by_cases hcc : fields.isCardCredit = true
    · rw [if_pos hcc] at h
      obtain rfl := Option.some.inj h
      exact possible_on_credit hdirection (by decide) (by decide)
    · rw [if_neg hcc] at h
      cases h

/-- **On a credit** interest and the merchant rules do not look at the card. -/
theorem directional_iff_credit (hdirection : fields.direction = "credit")
    (h : matchRules fields config = some result) :
    Directional fields result.slug ↔ ¬ Unguarded fields config := by
  by_cases hbefore : decidedBefore fields
  · exact directional_iff_of_before hdirection hbefore h
  · exact directional_iff_of_not_before hdirection hbefore h

/-- **A rule's category is possible unless an unguarded rule decides.** -/
theorem directional_matchRules_iff
    (hdirection : fields.direction = "debit" ∨ fields.direction = "credit")
    (h : matchRules fields config = some result) :
    Directional fields result.slug ↔ ¬ Unguarded fields config := by
  rcases hdirection with hd | hd
  · exact directional_iff_debit hd h
  · exact directional_iff_credit hd h

/-- Where an unguarded rule decides, it decides. -/
theorem matchRules_of_unguarded (h : Unguarded fields config) :
    ∃ result, matchRules fields config = some result := by
  unfold matchRules
  rcases h with ⟨hfd, hint, -, -⟩ | ⟨hfd, hrefund, -⟩ | ⟨category, hbefore, -, -, hcategory, -⟩
  · rw [if_neg (by simp [hfd]), if_pos hint]
    exact ⟨_, rfl⟩
  · rw [if_neg (by simp [hfd])]
    by_cases hint : fields.isInterest = true
    · rw [if_pos hint]
      exact ⟨_, rfl⟩
    · rw [if_neg hint, if_pos hrefund]
      exact ⟨_, rfl⟩
  · simp only [decidedBefore, not_or] at hbefore
    obtain ⟨h1, h2, h3, h4, h5, h6, h7, h8⟩ := hbefore
    rw [if_neg h1, if_neg h2, if_neg h3, if_neg h4, if_neg h5, if_neg h6, if_neg h7, if_neg h8,
      hcategory]
    dsimp only
    split_ifs
    · exact ⟨_, rfl⟩
    · exact ⟨_, rfl⟩

end FinancialDashboard.Categorization
