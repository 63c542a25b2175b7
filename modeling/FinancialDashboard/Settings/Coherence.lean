import FinancialDashboard.Settings.Store

/-!
# The cache and the rows

Every read goes to the cache, which a write updates beside the rows.  Loading the settings again
would change nothing but the version of the vocabulary: it is written to the cache before its
transaction is committed, and stays there where that is rolled back.

* `Coherent.save`: a save keeps the two together.
* `cache_coherent`: so does every run, and the cached version is ahead by the bumps that were lost.
-/

namespace FinancialDashboard.Settings

open PyText Transition

section

variable {Key : Type}

/-- The bumps that were rolled back since the boot, or since the last one that was committed. -/
def lostBumps (n : Int) : Event Key → Int
  | .boot _ => 0
  | .bump committed => if committed then 0 else n + 1
  | _ => n

variable [Fernet Key] {c : Catalogue} {p : Process Key} {rows updates : OrderedDict String String}
  {nonce : String → Nat} {n : Int}

/-- The process after `load_all_settings`. -/
def reloaded (p : Process Key) (rows : OrderedDict String String) : Process Key :=
  { p with cache := loadAllSettings p.registry p.fernet rows }

omit [Fernet Key] in
theorem keys_parseFormUpdates [UnicodeTables] [DecimalTables] {registry : Registry}
    {form : OrderedDict String String} {k : String} {d : SettingDef}
    (hd : registry.get? k = some d) (hinternal : d.internal = true) :
    (parseFormUpdates registry form).1.get? k = none := by
  unfold parseFormUpdates
  rw [OrderedDict.get?_filterMap, hd, Option.bind_some]
  unfold parseField
  rw [if_pos hinternal]
  rfl

variable [UnicodeTables] [DecimalTables]

/-- The cache is what the rows say, but for the lost bumps. -/
structure Coherent (c : Catalogue) (rows : OrderedDict String String) (n : Int) (p : Process Key) :
    Prop where
  booted : Booted c p.registry
  cache : ∀ k, k ≠ vocabVersionKey → p.cache.get? k = (reloaded p rows).cache.get? k
  version : getVocabVersion p = getVocabVersion (reloaded p rows) + n

omit [Fernet Key] in
theorem getVocabVersion_congr {p q : Process Key} (hregistry : p.registry = q.registry)
    (hcache : p.cache.get? vocabVersionKey = q.cache.get? vocabVersionKey) :
    getVocabVersion p = getVocabVersion q := by
  unfold getVocabVersion getSettingInt getSetting
  rw [hregistry, hcache]

omit [Fernet Key] in
theorem getVocabVersion_of_cache {text : String}
    (h : p.cache.get? vocabVersionKey = some text) :
    getVocabVersion p = (pyInt text).getD 1 := by
  unfold getVocabVersion getSettingInt getSetting
  rw [h]
  rfl

omit [UnicodeTables] [DecimalTables] in
theorem cache_reloaded_congr {p q : Process Key} {rows rows' : OrderedDict String String}
    {k : String} (hregistry : p.registry = q.registry) (hfernet : p.fernet = q.fernet)
    (hrows : rows.get? k = rows'.get? k) :
    (reloaded p rows).cache.get? k = (reloaded q rows').cache.get? k := by
  unfold reloaded
  rw [get?_loadAllSettings, get?_loadAllSettings, hregistry, hfernet, hrows]

omit [UnicodeTables] [DecimalTables] in
/-- A value that a save writes is read back from its row. -/
theorem cache_reloaded_written {k value : String}
    (hrow : rows.get? k = some (storeValue p.registry p.fernet nonce k value)) :
    (reloaded p rows).cache.get? k = some value := by
  unfold reloaded
  rw [get?_loadAllSettings, hrow]
  cases hregistry : p.registry.get? k with
  | some d =>
    rw [Option.map_some, loaded_storeValue]
    rfl
  | none =>
    have hplain : isSecret p.registry k = false := by
      unfold isSecret
      rw [hregistry]
      rfl
    have hvalue : loaded p.registry p.fernet k
        (storeValue p.registry p.fernet nonce k value) = value := loaded_storeValue value
    rw [loaded_of_not_secret hplain] at hvalue
    dsimp only
    rw [hvalue]

/-- **A save keeps the cache and the rows together.** -/
theorem Coherent.save (h : Coherent c rows n p) (hvocab : updates.get? vocabVersionKey = none) :
    Coherent c (saveSettings p rows updates nonce).1 n (saveSettings p rows updates nonce).2 := by
  refine ⟨h.booted, fun k hk => ?_, ?_⟩
  · rcases saveSettings_cases p rows updates nonce k with ⟨value, -, -, hrow, hcache⟩ |
      ⟨-, hrow, hcache⟩
    · rw [hcache]
      exact (cache_reloaded_written (p := (saveSettings p rows updates nonce).2) hrow).symm
    · rw [hcache, h.cache k hk]
      exact cache_reloaded_congr rfl rfl hrow.symm
  · rcases saveSettings_cases p rows updates nonce vocabVersionKey with ⟨value, hupdate, -⟩ |
      ⟨-, hrow, hcache⟩
    · rw [hvocab] at hupdate
      cases hupdate
    · have hleft : getVocabVersion (saveSettings p rows updates nonce).2 = getVocabVersion p :=
        getVocabVersion_congr rfl hcache
      have hright : getVocabVersion (reloaded (saveSettings p rows updates nonce).2
          (saveSettings p rows updates nonce).1) = getVocabVersion (reloaded p rows) :=
        getVocabVersion_congr rfl (cache_reloaded_congr rfl rfl hrow)
      rw [hleft, hright, h.version]

/-- A committed bump is in the row and in the cache, a lost one in the cache alone. -/
theorem Coherent.bump [StableTables] {text : String} (committed : Bool) (h : Coherent c rows n p)
    (htext : pyStr (getVocabVersion p + 1) = some text) :
    Coherent c (if committed then rows.set vocabVersionKey text else rows)
      (if committed then 0 else n + 1) { p with cache := p.cache.set vocabVersionKey text } := by
  obtain ⟨d, hd, -, hsecret⟩ := h.booted.vocabVersion
  have hversion : getVocabVersion { p with cache := p.cache.set vocabVersionKey text } =
      getVocabVersion p + 1 := by
    rw [getVocabVersion_of_cache OrderedDict.get?_set_self, pyInt_pyStr htext]
    rfl
  refine ⟨h.booted, fun k hk => ?_, ?_⟩
  · dsimp only
    rw [OrderedDict.get?_set_of_ne hk, h.cache k hk]
    refine cache_reloaded_congr rfl rfl ?_
    cases committed with
    | false => rfl
    | true => exact (OrderedDict.get?_set_of_ne hk).symm
  · rw [hversion]
    cases committed with
    | false =>
      have hkept : getVocabVersion (reloaded { p with cache := p.cache.set vocabVersionKey text }
          rows) = getVocabVersion (reloaded p rows) := getVocabVersion_congr rfl rfl
      show _ = getVocabVersion (reloaded _ rows) + (n + 1)
      rw [hkept, h.version]
      exact Int.add_assoc _ _ _
    | true =>
      have hplain : isSecret p.registry vocabVersionKey = false :=
        (isSecret_of_get? hd).trans hsecret
      have hcache : (reloaded { p with cache := p.cache.set vocabVersionKey text }
          (rows.set vocabVersionKey text)).cache.get? vocabVersionKey = some text := by
        unfold reloaded
        rw [get?_loadAllSettings, hd, OrderedDict.get?_set_self, Option.map_some,
          loaded_of_not_secret hplain]
        rfl
      show _ = getVocabVersion (reloaded _ (rows.set vocabVersionKey text)) + 0
      rw [getVocabVersion_of_cache hcache, pyInt_pyStr htext, Int.add_zero]
      rfl

/-- What a boot loads is what the rows say. -/
theorem coherent_boot {registry : Registry} {fernet : Key} {configured : Bool}
    (h : Booted c registry) :
    Coherent c rows 0 ⟨registry, fernet, configured, loadAllSettings registry fernet rows⟩ :=
  ⟨h, fun _ _ => rfl, (Int.add_zero _).symm⟩

theorem coherent_step [StableTables] {s t : State Key} {e : Event Key}
    (hs : ∀ p, s.process = some p → Coherent c s.rows n p) (h : step c s e = some t) :
    ∀ p, t.process = some p → Coherent c t.rows (lostBumps n e) p := by
  cases e with
  | boot env =>
    unfold step at h
    split_ifs at h with hrunning
    obtain ⟨registry, hregistry, rfl⟩ := Option.map_eq_some_iff.mp h
    dsimp only
    split_ifs with hrefused
    · intro p hp
      have hp : s.process = some p := hp
      rw [hp] at hrunning
      exact absurd rfl hrunning
    · rintro p ⟨⟩
      exact coherent_boot (booted_of_register hregistry)
  | shutdown =>
    cases h
    rintro p ⟨⟩
  | submit form nonce =>
    obtain ⟨p, hp, rfl⟩ := Option.map_eq_some_iff.mp h
    dsimp only
    split_ifs with herrors
    · exact hs
    · rintro q ⟨⟩
      obtain ⟨d, hd, hinternal, -⟩ := (hs p hp).booted.vocabVersion
      exact (hs p hp).save (keys_parseFormUpdates hd hinternal)
  | configure updates nonce =>
    obtain ⟨p, hp, hstep⟩ := Option.bind_eq_some_iff.mp h
    split_ifs at hstep with hkeys
    cases hstep
    rintro q ⟨⟩
    refine (hs p hp).save ?_
    by_contra hvocab
    obtain ⟨d, hd, -⟩ := c.vocabVersion
    exact (hkeys _ (OrderedDict.mem_keys_iff.mpr hvocab)).1 (c.disjoint _ _ hd)
  | credentials has =>
    cases h
    exact hs
  | bump committed =>
    obtain ⟨p, hp, hstep⟩ := Option.bind_eq_some_iff.mp h
    obtain ⟨text, htext, rfl⟩ := Option.map_eq_some_iff.mp hstep
    rintro q ⟨⟩
    exact (hs p hp).bump committed htext
  | marker k value =>
    simp only [step] at h
    split_ifs at h with hblocked
    obtain rfl := Option.some.inj h
    intro p hp
    exact absurd (.inl (by rw [hp]; rfl)) hblocked

/-- **Loading the settings again changes nothing.**  In every run of boots, forms, saves and bumps,
under any keys and with the extension enabled or not, what a process reads is what it would
read after loading the rows again; only the version of the vocabulary is ahead, by the bumps
that were rolled back since the boot or the last committed one. -/
theorem cache_coherent [StableTables] {es : List (Event Key)} {s : State Key}
    (h : (settings c).exec .fresh es = some s) (hp : s.process = some p) :
    (∀ k, k ≠ vocabVersionKey → getSetting p k = getSetting (reloaded p s.rows) k) ∧
      getVocabVersion p = getVocabVersion (reloaded p s.rows) + es.foldl lostBumps 0 := by
  have hrun : ∀ (es : List (Event Key)) (s : State Key) (n : Int) (t : State Key),
      (∀ p, s.process = some p → Coherent c s.rows n p) → (settings c).exec s es = some t →
      ∀ p, t.process = some p → Coherent c t.rows (es.foldl lostBumps n) p := by
    intro es
    induction es with
    | nil =>
      rintro s n t hs ⟨⟩
      exact hs
    | cons e es ih =>
      intro s n t hs ht
      obtain ⟨u, hu, ht⟩ := Option.bind_eq_some_iff.mp ht
      exact ih u (lostBumps n e) t (coherent_step hs hu) ht
  have hcoherent := hrun es .fresh 0 s (by rintro p ⟨⟩) h p hp
  refine ⟨fun k hk => ?_, hcoherent.version⟩
  unfold getSetting
  rw [hcoherent.cache k hk]
  rfl

end

/-! ### A trace -/

/-- Tokens that name their key and hide nothing. -/
@[reducible] def plainFernet : Fernet Bool where
  encrypt key _ text := String.ofList ((if key then '1' else '0') :: text.toList)
  decrypt key token :=
    match token.toList with
    | [] => none
    | c :: rest => if c = (if key then '1' else '0') then some (String.ofList rest) else none
  decrypt_encrypt key nonce text := by
    rw [String.toList_ofList]
    simp
  decrypt_other key other nonce text h := by
    rw [String.toList_ofList]
    cases key <;> cases other <;> simp_all
  encrypt_ne_empty key nonce text h := by
    have hlist := congrArg String.toList h
    rw [String.toList_ofList] at hlist
    cases hlist

/-- A setting of free text. -/
def plainText (label : String) : SettingDef := ⟨"", .str, label, false, false, []⟩

def sampleCatalogue : Catalogue where
  builtin := ⟨[(vocabVersionKey, ⟨"1", .int, "Vocabulary Version", false, true, []⟩),
    ("cas_pan", ⟨"", .str, "CAS PAN", true, false, []⟩),
    ("poll_interval_minutes", ⟨"15", .int, "Poll Interval", false, false, []⟩),
    ("categorization.self_identifiers", plainText "Self Identifiers"),
    ("categorization.hidden_identifiers", plainText "Hidden Identifiers")], by decide⟩
  contributed := ⟨[("paisa.auth_password", ⟨"", .str, "Auth Password", true, false, []⟩)],
    by decide⟩
  disjoint k d h := by
    have hk : k ∈ [vocabVersionKey, "cas_pan", "poll_interval_minutes",
        "categorization.self_identifiers", "categorization.hidden_identifiers"] :=
      List.mem_map_of_mem (f := Prod.fst) (OrderedDict.mem_items_iff.mpr h)
    simp only [List.mem_cons, List.not_mem_nil, or_false] at hk
    rcases hk with rfl | rfl | rfl | rfl | rfl <;> decide
  vocabVersion := ⟨_, rfl, rfl, rfl⟩
  identifiers keys h := by
    simp only [renamedKeys, List.mem_cons, List.not_mem_nil, or_false] at h
    rcases h with rfl | rfl
    · exact ⟨plainText "Self Identifiers", by decide, rfl, rfl, rfl⟩
    · exact ⟨plainText "Hidden Identifiers", by decide, rfl, rfl, rfl⟩
  unregistered := by decide

/-- The environment of the first boot. -/
def sampleEnvironment : Environment Bool := ⟨some true, false, false, false, true, "secret"⟩

def laterEnvironment : Environment Bool := { sampleEnvironment with newSeedCategories := false }

def lostBumpEvents : List (Event Bool) :=
  [.boot sampleEnvironment, .submit ⟨[("cas_pan", "ABCDE1234F"), ("poll_interval_minutes", "30")],
    by decide⟩ fun _ => 0, .bump true, .bump false]

theorem cache_coherent_lostBump :
    let _ := asciiTables
    let _ := asciiDecimals
    let _ := plainFernet
    ∃ s p, (settings sampleCatalogue).exec .fresh lostBumpEvents = some s ∧ s.process = some p ∧
      getVocabVersion p = getVocabVersion (reloaded p s.rows) + 1 := by
  intro _ _ _
  have : StableTables := asciiStable
  have hruns : (((settings sampleCatalogue).exec .fresh lostBumpEvents).bind
      (·.process)).isSome = true := by decide +kernel
  obtain ⟨p, hp⟩ := Option.isSome_iff_exists.mp hruns
  obtain ⟨s, hs, hp⟩ := Option.bind_eq_some_iff.mp hp
  exact ⟨s, p, hs, hp, (cache_coherent hs hp).2⟩

end FinancialDashboard.Settings
