import FinancialDashboard.Lib.OrderedDict
import FinancialDashboard.Paisa.Conservation
import Mathlib.Data.List.Find

/-!
# The cards of a payment

`_load_card_resolution_maps` and `_resolve_card_for_payment` of
`services/paisa/projection.py`: the dictionaries that are filled card by card, and what a
payment is looked up in.

* `resolve_eq`: what is looked up is what the projection resolves a payment to.
* `loadCardResolutionMaps_perm`: the order in which accounts and cards are read makes no
  difference, neither to the maps nor to what becomes of a transaction, and a mask of two cards
  resolves to none.
-/

namespace FinancialDashboard.Paisa

open PyText Transactions

/-- `_CardResolutionMaps`; the ambiguous masks are a set. -/
structure CardResolutionMaps where
  byCardId : OrderedDict Nat ResolvedCard
  byUniqueMask : OrderedDict String ResolvedCard
  ambiguousMasks : List String

/-- The same dictionaries and the same set. -/
structure CardResolutionMaps.Same (maps maps' : CardResolutionMaps) : Prop where
  byCardId : ∀ id, maps.byCardId.get? id = maps'.byCardId.get? id
  byUniqueMask : ∀ mask, maps.byUniqueMask.get? mask = maps'.byUniqueMask.get? mask
  ambiguousMasks : ∀ mask, mask ∈ maps.ambiguousMasks ↔ mask ∈ maps'.ambiguousMasks

variable [UnicodeTables]

/-- `mask_candidates`. -/
def candidatesByMask (accounts : List LedgerAccount) (cards : List Card) :
    OrderedDict String (List ResolvedCard) :=
  .collect (((resolvedCards accounts cards).filter (·.1.cardMask ≠ "")).map
    fun c => (strip c.1.cardMask, c.2))

/-- `_load_card_resolution_maps`. -/
def loadCardResolutionMaps (accounts : List LedgerAccount) (cards : List Card) :
    CardResolutionMaps where
  byCardId := .fill ((resolvedCards accounts cards).map fun c => (c.1.id, c.2))
  byUniqueMask := (candidatesByMask accounts cards).filterMap fun mask candidates =>
    if mask ≠ "" && candidates.length = 1 then candidates.head? else none
  ambiguousMasks := ((candidatesByMask accounts cards).items.filter fun i =>
    i.1 ≠ "" && 1 < i.2.length).map Prod.fst

/-- `_resolve_card_for_payment`. -/
def CardResolutionMaps.resolve (maps : CardResolutionMaps) (t : BookedTransaction) :
    CardResolution :=
  match t.cardId.bind maps.byCardId.get? with
  | some card => .resolved card
  | none =>
    let mask := strip (t.cardMask.getD "")
    if mask = "" then .unresolved
    else if mask ∈ maps.ambiguousMasks then .ambiguousMask
    else match maps.byUniqueMask.get? mask with
      | some card => .resolved card
      | none => .unresolved

/-! ### What the maps hold -/

section

variable {accounts accounts' : List LedgerAccount} {cards cards' : List Card} {mask : String}

theorem getD_candidatesByMask (accounts : List LedgerAccount) (cards : List Card) (mask : String) :
    ((candidatesByMask accounts cards).get? mask).getD [] = maskCandidates accounts cards mask := by
  rw [candidatesByMask, OrderedDict.getD_collect, List.filter_map, List.map_map, List.filter_filter]
  unfold maskCandidates
  refine congrArg (List.map Prod.snd) (List.filter_congr fun c _ => ?_)
  simp [Bool.and_comm]

/-- **Of a mask the one card it is stored for is kept.** -/
theorem get?_byUniqueMask {card : ResolvedCard} :
    (loadCardResolutionMaps accounts cards).byUniqueMask.get? mask = some card ↔
      mask ≠ "" ∧ maskCandidates accounts cards mask = [card] := by
  have hone : ∀ candidates : List ResolvedCard,
      (if mask ≠ "" && candidates.length = 1 then candidates.head? else none) = some card ↔
        mask ≠ "" ∧ candidates = [card] := by
    rintro (_ | ⟨first, _ | ⟨second, rest⟩⟩)
    · simp
    · by_cases hmask : mask = "" <;> simp [hmask]
    · simp
  rw [loadCardResolutionMaps, OrderedDict.get?_filterMap, ← getD_candidatesByMask]
  cases (candidatesByMask accounts cards).get? mask with
  | none => simp
  | some candidates => exact hone candidates

/-- **The ambiguous masks are those of several cards.** -/
theorem mem_ambiguousMasks :
    mask ∈ (loadCardResolutionMaps accounts cards).ambiguousMasks ↔
      mask ≠ "" ∧ 1 < (maskCandidates accounts cards mask).length := by
  rw [loadCardResolutionMaps, List.mem_map, ← getD_candidatesByMask]
  constructor
  · rintro ⟨⟨_, candidates⟩, hi, rfl⟩
    obtain ⟨hi, hmany⟩ := List.mem_filter.mp hi
    rw [OrderedDict.mem_items_iff.mp hi]
    simpa using hmany
  · rintro ⟨hmask, hmany⟩
    cases hget : (candidatesByMask accounts cards).get? mask with
    | none =>
      rw [hget] at hmany
      exact absurd hmany (by decide)
    | some candidates =>
      rw [hget] at hmany
      exact ⟨(mask, candidates), List.mem_filter.mpr ⟨OrderedDict.mem_items_iff.mpr hget,
        by simpa using ⟨hmask, hmany⟩⟩, rfl⟩

omit [UnicodeTables] in
theorem mem_resolvedCards {c : Card × ResolvedCard} (h : c ∈ resolvedCards accounts cards) :
    c.1 ∈ cards ∧ c.2.cardId = c.1.id := by
  obtain ⟨card, hcard, hmap⟩ := List.mem_filterMap.mp h
  obtain ⟨account, -, rfl⟩ := Option.map_eq_some_iff.mp hmap
  exact ⟨hcard, rfl⟩

omit [UnicodeTables] in
theorem nodup_resolvedCards (hcards : (cards.map (·.id)).Nodup) :
    ((resolvedCards accounts cards).map (·.1.id)).Nodup := by
  refine hcards.sublist ?_
  unfold resolvedCards
  induction cards with
  | nil => exact .slnil
  | cons card cards ih =>
    rw [List.filterMap_cons]
    have hrest := ih (List.nodup_cons.mp hcards).2
    cases ((accounts.filter (·.kind = .liability)).find? (·.accountId = card.accountId)) with
    | none => exact hrest.cons _
    | some account => exact hrest.cons_cons _

theorem get?_byCardId (hcards : (cards.map (·.id)).Nodup) (id : Nat) :
    (loadCardResolutionMaps accounts cards).byCardId.get? id =
      ((resolvedCards accounts cards).find? (·.1.id = id)).map (·.2) := by
  have hnodup : ((resolvedCards accounts cards).map (·.1.id)).Nodup := nodup_resolvedCards hcards
  have hkeys :
      (((resolvedCards accounts cards).map fun c => (c.1.id, c.2)).map Prod.fst).Nodup := by
    rw [List.map_map]
    exact hnodup
  refine Option.ext fun card => ?_
  rw [loadCardResolutionMaps, OrderedDict.get?_fill_iff hkeys, List.mem_map]
  constructor
  · rintro ⟨c, hc, heq⟩
    obtain ⟨rfl, rfl⟩ := Prod.mk.inj heq
    obtain ⟨found, hfound⟩ := Option.isSome_iff_exists.mp
      (List.find?_isSome (p := fun d : Card × ResolvedCard => d.1.id = c.1.id) |>.mpr
        ⟨c, hc, by simp⟩)
    have hid : found.1.id = c.1.id := by simpa using List.find?_some hfound
    have hsame : found = c :=
      List.inj_on_of_nodup_map hnodup (List.mem_of_find?_eq_some hfound) hc hid
    rw [hfound, hsame]
    rfl
  · intro h
    obtain ⟨c, hfound, rfl⟩ := Option.map_eq_some_iff.mp h
    have hid : c.1.id = id := by simpa using List.find?_some hfound
    exact ⟨c, List.mem_of_find?_eq_some hfound, by rw [hid]⟩

/-- **The projection resolves a payment as the maps do.** -/
theorem resolve_eq (hcards : (cards.map (·.id)).Nodup) (t : BookedTransaction) :
    (loadCardResolutionMaps accounts cards).resolve t = resolveCardForPayment accounts cards t := by
  have hid : t.cardId.bind (loadCardResolutionMaps accounts cards).byCardId.get? =
      (t.cardId.bind fun id => (resolvedCards accounts cards).find? (·.1.id = id)).map (·.2) := by
    rw [Option.map_bind]
    exact congrArg _ (funext fun id => get?_byCardId hcards id)
  unfold CardResolutionMaps.resolve resolveCardForPayment
  rw [hid]
  dsimp only
  cases t.cardId.bind fun id => (resolvedCards accounts cards).find? (·.1.id = id) with
  | some c => rfl
  | none =>
    dsimp only [Option.map_none]
    by_cases hmask : strip (t.cardMask.getD "") = ""
    · rw [if_pos hmask, if_pos hmask]
    rw [if_neg hmask, if_neg hmask]
    have hambiguous : strip (t.cardMask.getD "") ∈
        (loadCardResolutionMaps accounts cards).ambiguousMasks ↔ strip (t.cardMask.getD "") ≠ "" ∧
          1 < (maskCandidates accounts cards (strip (t.cardMask.getD ""))).length :=
      mem_ambiguousMasks
    cases hcandidates : maskCandidates accounts cards (strip (t.cardMask.getD "")) with
    | nil =>
      have hnone : (loadCardResolutionMaps accounts cards).byUniqueMask.get?
          (strip (t.cardMask.getD "")) = none := by
        refine Option.eq_none_iff_forall_ne_some.mpr fun card hcard => ?_
        rw [get?_byUniqueMask, hcandidates] at hcard
        cases hcard.2
      rw [hcandidates] at hambiguous
      rw [if_neg fun h => absurd (hambiguous.mp h).2 (by decide), hnone]
    | cons first rest =>
      rw [hcandidates] at hambiguous
      cases rest with
      | nil =>
        rw [if_neg fun h => absurd (hambiguous.mp h).2 (by simp),
          get?_byUniqueMask.mpr ⟨hmask, hcandidates⟩]
      | cons second rest => rw [if_pos (hambiguous.mpr ⟨hmask, by simp⟩)]

/-! ### The order of the queries -/

omit [UnicodeTables] in
/-- Of two orders of accounts the same one is found. -/
theorem find?_account_perm (haccounts : (accounts.map (·.accountId)).Nodup)
    (h : accounts.Perm accounts') (id : Nat) :
    accounts.find? (·.accountId = id) = accounts'.find? (·.accountId = id) := by
  refine List.find?_eq_find?_of_perm h ?_
  rintro a ⟨ha, hid⟩ b ⟨hb, hid'⟩
  exact List.inj_on_of_nodup_map haccounts ha hb
    ((of_decide_eq_true hid).trans (of_decide_eq_true hid').symm)

omit [UnicodeTables] in
theorem resolvedCards_perm (haccounts : (accounts.map (·.accountId)).Nodup)
    (h : accounts.Perm accounts') (h' : cards.Perm cards') :
    (resolvedCards accounts cards).Perm (resolvedCards accounts' cards') := by
  have hliability : ((accounts.filter (·.kind = .liability)).map (·.accountId)).Nodup :=
    haccounts.sublist (List.filter_sublist.map _)
  unfold resolvedCards
  simp only [find?_account_perm hliability (h.filter _)]
  exact h'.filterMap _

theorem maskCandidates_perm (haccounts : (accounts.map (·.accountId)).Nodup)
    (h : accounts.Perm accounts') (h' : cards.Perm cards') (mask : String) :
    (maskCandidates accounts cards mask).Perm (maskCandidates accounts' cards' mask) :=
  ((resolvedCards_perm haccounts h h').filter _).map _

theorem same_maps (haccounts : (accounts.map (·.accountId)).Nodup)
    (hcards : (cards.map (·.id)).Nodup) (h : accounts.Perm accounts') (h' : cards.Perm cards') :
    (loadCardResolutionMaps accounts cards).Same (loadCardResolutionMaps accounts' cards') where
  byCardId id := by
    rw [get?_byCardId hcards, get?_byCardId ((h'.map _).nodup_iff.mp hcards)]
    refine congrArg _ (List.find?_eq_find?_of_perm (resolvedCards_perm haccounts h h') ?_)
    rintro a ⟨ha, hid⟩ b ⟨hb, hid'⟩
    exact List.inj_on_of_nodup_map (nodup_resolvedCards hcards) ha hb
      ((of_decide_eq_true hid).trans (of_decide_eq_true hid').symm)
  byUniqueMask mask := by
    refine Option.ext fun card => ?_
    rw [get?_byUniqueMask, get?_byUniqueMask]
    refine and_congr_right fun _ => ?_
    have hperm := maskCandidates_perm haccounts h h' mask
    constructor
    · intro hone
      exact List.perm_singleton.mp (hperm.symm.trans (.of_eq hone))
    · intro hone
      exact List.perm_singleton.mp (hperm.trans (.of_eq hone))
  ambiguousMasks mask := by
    rw [mem_ambiguousMasks, mem_ambiguousMasks, (maskCandidates_perm haccounts h h' mask).length_eq]

theorem CardResolutionMaps.Same.resolve_same {maps maps' : CardResolutionMaps}
    (h : maps.Same maps') (t : BookedTransaction) : maps.resolve t = maps'.resolve t := by
  have hid : maps.byCardId.get? = maps'.byCardId.get? := funext h.byCardId
  unfold CardResolutionMaps.resolve
  simp only [hid, h.byUniqueMask, h.ambiguousMasks]

/-- A mask that is stored for two cards is ambiguous. -/
theorem ambiguous_of_two {c c' : Card × ResolvedCard} (hc : c ∈ resolvedCards accounts cards)
    (hc' : c' ∈ resolvedCards accounts cards) (hne : c.1.id ≠ c'.1.id) (hmask : mask ≠ "")
    (hstored : strip c.1.cardMask = mask) (hstored' : strip c'.1.cardMask = mask) :
    mask ∈ (loadCardResolutionMaps accounts cards).ambiguousMasks := by
  have hcandidate : ∀ {c : Card × ResolvedCard}, c ∈ resolvedCards accounts cards →
      strip c.1.cardMask = mask → c.2 ∈ maskCandidates accounts cards mask := by
    intro c hc hstored
    refine List.mem_map_of_mem (List.mem_filter.mpr ⟨hc, ?_⟩)
    have hnonempty : c.1.cardMask ≠ "" := by
      rintro hempty
      rw [hempty] at hstored
      exact hmask (hstored.symm.trans rfl)
    simp [hstored, hnonempty]
  refine mem_ambiguousMasks.mpr ⟨hmask, ?_⟩
  have hdifferent : c.2 ≠ c'.2 := by
    intro heq
    refine hne ?_
    rw [← (mem_resolvedCards hc).2, ← (mem_resolvedCards hc').2, heq]
  have hmem := hcandidate hc hstored
  have hmem' := hcandidate hc' hstored'
  generalize maskCandidates accounts cards mask = candidates at hmem hmem'
  match candidates, hmem, hmem' with
  | [], hmem, _ => cases hmem
  | [_], hmem, hmem' =>
    exact absurd ((List.mem_singleton.mp hmem).trans (List.mem_singleton.mp hmem').symm) hdifferent
  | _ :: _ :: _, _, _ => simp

variable [TitleTables]

omit [UnicodeTables] [TitleTables] in
theorem accountOf_perm (haccounts : (accounts.map (·.accountId)).Nodup)
    (h : accounts.Perm accounts') (t : BookedTransaction) :
    accountOf accounts t = accountOf accounts' t := by
  unfold accountOf
  simp only [find?_account_perm haccounts h]

theorem projectRow_perm (config : PaisaProjectionConfig)
    (haccounts : (accounts.map (·.accountId)).Nodup) (hcards : (cards.map (·.id)).Nodup)
    (h : accounts.Perm accounts') (h' : cards.Perm cards') (t : BookedTransaction) :
    projectRow config accounts cards t = projectRow config accounts' cards' t := by
  have hresolution : resolveCardForPayment accounts cards t =
      resolveCardForPayment accounts' cards' t := by
    rw [← resolve_eq hcards, ← resolve_eq ((h'.map _).nodup_iff.mp hcards)]
    exact (same_maps haccounts hcards h h').resolve_same t
  unfold projectRow
  rw [accountOf_perm haccounts h, hresolution]

/-- **The order in which accounts and cards are read makes no difference**, neither to the maps
nor to what becomes of a transaction; and a mask that is stored for two cards resolves to
none. -/
theorem loadCardResolutionMaps_perm (config : PaisaProjectionConfig)
    (haccounts : (accounts.map (·.accountId)).Nodup) (hcards : (cards.map (·.id)).Nodup)
    (h : accounts.Perm accounts') (h' : cards.Perm cards') :
    (loadCardResolutionMaps accounts cards).Same (loadCardResolutionMaps accounts' cards') ∧
    (∀ c ∈ resolvedCards accounts cards, ∀ c' ∈ resolvedCards accounts cards,
      c.1.id ≠ c'.1.id → strip c.1.cardMask = strip c'.1.cardMask →
      ∀ t : BookedTransaction, strip (t.cardMask.getD "") = strip c.1.cardMask →
        t.cardId.bind (loadCardResolutionMaps accounts cards).byCardId.get? = none →
        ∀ card, (loadCardResolutionMaps accounts cards).resolve t ≠ .resolved card) ∧
    ∀ t : BookedTransaction,
      projectRow config accounts cards t = projectRow config accounts' cards' t := by
  refine ⟨same_maps haccounts hcards h h', fun c hc c' hc' hne hsame t hmask hid card => ?_,
    projectRow_perm config haccounts hcards h h'⟩
  unfold CardResolutionMaps.resolve
  rw [hid]
  dsimp only
  split_ifs with hempty hambiguous
  · intro h
    cases h
  · intro h
    cases h
  · exact absurd (ambiguous_of_two hc hc' hne hempty hmask.symm (hsame.symm.trans hmask.symm))
      hambiguous

end

/-! ### Two cards that end alike -/

def twoCardAccounts : List LedgerAccount :=
  [⟨1, ⟨.liabilities, ["CreditCard", "Regalia"]⟩, .liability⟩,
    ⟨2, ⟨.liabilities, ["CreditCard", "Millennia"]⟩, .liability⟩]

/-- Two masks that one number may have. -/
def twoMasks : List Card := [⟨1, 1, "XX4321"⟩, ⟨2, 2, "4321"⟩]

/-- A payment of a card whose last digits are known. -/
def maskedPayment : BookedTransaction :=
  { bankRow 1 3 "debit" "credit_card_payment" none with cardMask := some "4321" }

omit [UnicodeTables] in
/-- **The mask of the payment is compatible with cards of two accounts, and resolves.** -/
theorem compatible_mask_resolves : let _ := asciiTables
    ∃ c ∈ resolvedCards twoCardAccounts twoMasks, ∃ c' ∈ resolvedCards twoCardAccounts twoMasks,
      c.2.account ≠ c'.2.account ∧
      maskMatches (normalizeMask maskedPayment.cardMask) (normalizeMask (some c.1.cardMask)) ∧
      maskMatches (normalizeMask maskedPayment.cardMask) (normalizeMask (some c'.1.cardMask)) ∧
      (loadCardResolutionMaps twoCardAccounts twoMasks).resolve maskedPayment = .resolved c'.2 := by
  intro _
  have hcards : resolvedCards twoCardAccounts twoMasks =
      [(⟨1, 1, "XX4321"⟩, ⟨1, ⟨1, ⟨.liabilities, ["CreditCard", "Regalia"]⟩, .liability⟩⟩),
        (⟨2, 2, "4321"⟩, ⟨2, ⟨2, ⟨.liabilities, ["CreditCard", "Millennia"]⟩, .liability⟩⟩)] := by
    decide
  rw [hcards]
  refine ⟨_, List.mem_cons_self, _, List.mem_cons_of_mem _ List.mem_cons_self, by decide,
    by decide, by decide, by decide +kernel⟩

omit [UnicodeTables] in
theorem loadCardResolutionMaps_two : let _ := asciiTables; let _ := asciiTitles
    (loadCardResolutionMaps twoCardAccounts twoMasks).Same
      (loadCardResolutionMaps twoCardAccounts.reverse twoMasks.reverse) ∧
    projectRow allAccounts twoCardAccounts twoMasks maskedPayment =
      projectRow allAccounts twoCardAccounts.reverse twoMasks.reverse maskedPayment := by
  intro _ _
  have haccounts : (twoCardAccounts.map (·.accountId)).Nodup := by decide
  have hcards : (twoMasks.map (·.id)).Nodup := by decide
  have hperm := loadCardResolutionMaps_perm allAccounts haccounts hcards
    (List.reverse_perm _).symm (List.reverse_perm _).symm
  exact ⟨hperm.1, hperm.2.2 maskedPayment⟩

end FinancialDashboard.Paisa
