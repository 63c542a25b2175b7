import FinancialDashboard.Lib.OrderedDict
import FinancialDashboard.Lib.PyInt
import FinancialDashboard.Lib.Transition

/-!
# The settings, the rows behind them and the cache

`services/settings.py` with the fernet of `config.py`, the registration of an extension's
settings, what `init_db` writes to the settings, and the writes of the vocabulary's version.  A
deployment boots with an environment, brings the rows up to date, loads them into the cache, and
from then on reads only the cache.

The texts of the registry are not listed: everything is over any `Catalogue` of built-in and
contributed settings.  What restarts when the Telegram settings change is left out, and so is
what the page shows of a setting beside its value.

* `booted_of_register`: what a boot registers.
* `initWrites_congr`, `mem_initKeys`: what `init_db` reads and writes.
* `get?_loadAllSettings`, `saveSettings_cases`: what loading and saving do to one key.
-/

namespace FinancialDashboard.Settings

open PyText Transition

/-! ### The registry -/

inductive DataType
  | str | int | bool | json
  deriving DecidableEq, Repr

structure SettingDef where
  default : String
  dataType : DataType
  label : String
  secret : Bool
  /-- Never set by the form. -/
  internal : Bool
  /-- No choices are free text. -/
  choices : List String
  deriving DecidableEq

abbrev Registry := OrderedDict String SettingDef

def vocabVersionKey : String := "category_vocab_version"

def renameMarker : String := "migrations.categorization_identifier_rename"

/-- The settings that had another key, with that key first. -/
def renamedKeys : List (String × String) :=
  [("categorization.self_names", "categorization.self_identifiers"),
    ("categorization.redact_names", "categorization.hidden_identifiers")]

/-- `PORTFOLIO_TOKEN_SECRET_KEY` -/
def portfolioTokenSecretKey : String := "paisa.portfolio_token_secret"

/-- The keys of rows that are no settings. -/
def unregisteredKeys : List String :=
  renameMarker :: portfolioTokenSecretKey :: renamedKeys.map Prod.fst

/-- Free text, which anyone may read. -/
structure SettingDef.PlainText (d : SettingDef) : Prop where
  dataType : d.dataType = .str
  secret : d.secret = false
  choices : d.choices = []

/-- `SETTINGS_REGISTRY` as the module leaves it, and the settings of the one builtin extension. -/
structure Catalogue where
  builtin : Registry
  contributed : Registry
  disjoint : ∀ k d, builtin.get? k = some d → contributed.get? k = none
  vocabVersion : ∃ d, builtin.get? vocabVersionKey = some d ∧ d.internal = true ∧ d.secret = false
  identifiers : ∀ keys ∈ renamedKeys, ∃ d, builtin.get? keys.2 = some d ∧ d.PlainText
  unregistered : ∀ k ∈ unregisteredKeys, builtin.get? k = none ∧ contributed.get? k = none

/-- `register_setting`, where the key may be there already with the same definition;
`ExtensionRegistrationError` where it is there with another. -/
def contribute (registry : Registry) (entry : String × SettingDef) : Option Registry :=
  match registry.get? entry.1 with
  | some existing => if existing = entry.2 then some registry else none
  | none => some (registry.set entry.1 entry.2)

/-- What a disabled extension has left in the registry goes. -/
def withdraw (registry : Registry) (entry : String × SettingDef) : Registry :=
  if registry.get? entry.1 = some entry.2 then registry.pop entry.1 else registry

/-- `register_builtin_extensions` -/
def registerBuiltinExtensions (registry contributed : Registry) (enabled : Bool) :
    Option Registry :=
  if enabled then contributed.items.foldlM contribute registry
  else some (contributed.items.foldl withdraw registry)

/-! ### Secrets -/

/-- `cryptography.fernet`, with what it draws for a token as an argument. -/
class Fernet (Key : Type) where
  encrypt : Key → Nat → String → String
  /-- `none` where it raises. -/
  decrypt : Key → String → Option String
  decrypt_encrypt : ∀ key nonce text, decrypt key (encrypt key nonce text) = some text
  decrypt_other : ∀ key other nonce text, key ≠ other →
    decrypt other (encrypt key nonce text) = none
  encrypt_ne_empty : ∀ key nonce text, encrypt key nonce text ≠ ""

def isSecret (registry : Registry) (k : String) : Bool := (registry.get? k).any (·.secret)

section

variable {Key : Type} [Fernet Key]

/-- A row as it is loaded: a secret that cannot be decrypted is blank. -/
def loaded (registry : Registry) (fernet : Key) (k stored : String) : String :=
  if isSecret registry k ∧ stored ≠ "" then (Fernet.decrypt fernet stored).getD "" else stored

def storeValue (registry : Registry) (fernet : Key) (nonce : String → Nat) (k value : String) :
    String :=
  if isSecret registry k ∧ value ≠ "" then Fernet.encrypt fernet (nonce k) value else value

/-! ### Loading and saving -/

/-- `load_all_settings`: the registered keys with their defaults, then the other rows. -/
def loadAllSettings (registry : Registry) (fernet : Key) (rows : OrderedDict String String) :
    OrderedDict String String :=
  let dbValues := rows.filterMap fun k stored => some (loaded registry fernet k stored)
  (registry.filterMap fun k d => some ((dbValues.get? k).getD d.default)).update
    (dbValues.filterMap fun k value => if (registry.get? k).isNone then some value else none)

/-- What a running process holds. -/
structure Process (Key : Type) where
  registry : Registry
  fernet : Key
  /-- The fernet is that of `EMAIL_SOURCE_MASTER_KEY`. -/
  configured : Bool
  cache : OrderedDict String String

/-- What `save_settings` writes: a value that is cached already is passed over. -/
def changedOf (p : Process Key) (updates : OrderedDict String String) : OrderedDict String String :=
  updates.filterMap fun k value => if p.cache.get? k = some value then none else some value

/-- `save_settings`: the rows and the cache after the commit. -/
def saveSettings (p : Process Key) (rows updates : OrderedDict String String)
    (nonce : String → Nat) : OrderedDict String String × Process Key :=
  let changed := changedOf p updates
  (rows.update (changed.filterMap fun k value =>
      some (storeValue p.registry p.fernet nonce k value)),
    { p with cache := p.cache.update changed })

/-! ### Reading -/

omit [Fernet Key] in
/-- `get_setting(key)` -/
def getSetting (p : Process Key) (k : String) : Option String :=
  p.cache.get? k <|> (p.registry.get? k).map (·.default)

variable [UnicodeTables] [DecimalTables]

omit [Fernet Key] in
/-- `get_setting_int(key, default)` -/
def getSettingInt (p : Process Key) (k : String) (default : Int) : Int :=
  ((getSetting p k).bind pyInt).getD default

/-! ### The form -/

/-- What becomes of one field. -/
inductive FieldResult
  | skip
  | update (value : String)
  | error (message : String)
  deriving DecidableEq

namespace FieldResult

def value? : FieldResult → Option String
  | update value => some value
  | _ => none

def message? : FieldResult → Option String
  | error message => some message
  | _ => none

end FieldResult

/-- `json.dumps` of a list of numbers. -/
def dumpInts (parts : List Int) : String :=
  "[" ++ ", ".intercalate (parts.map fun n => toString n) ++ "]"

/-- `[int(x.strip()) for x in raw.split(",") if x.strip()]`; `none` where it raises. -/
def splitInts (raw : String) : Option (List Int) :=
  (((raw.toList.splitOn ',').map fun part => strip (String.ofList part)).filter (· ≠ "")).mapM pyInt

/-- The text of a number or of numbers is checked; a blank one is the default. -/
def checkType (d : SettingDef) (raw : String) : Except String String :=
  match d.dataType with
  | .int =>
    if raw = "" then .ok d.default
    else if (pyInt raw).isSome then .ok raw
    else .error (d.label ++ ": must be a number")
  | .json =>
    if raw = "" then .ok d.default
    else
      match splitInts raw with
      | some parts => .ok (dumpInts parts)
      | none => .error (d.label ++ ": must be comma-separated numbers")
  | _ => .ok raw

/-- One turn of the loop of `parse_form_updates`. -/
def parseField (form : OrderedDict String String) (k : String) (d : SettingDef) : FieldResult :=
  if d.internal then .skip
  else if d.dataType = .bool then
    .update (if (form.get? k).getD "" ≠ "" then "true" else "false")
  else
    match form.get? k with
    | none => .skip
    | some text =>
      if d.secret ∧ strip text = "" then .skip
      else
        match checkType d (strip text) with
        | .error message => .error message
        | .ok raw =>
          if d.choices ≠ [] ∧ raw ≠ "" ∧ raw ∉ d.choices then
            .error (d.label ++ ": must be one of " ++ ", ".intercalate d.choices)
          else .update raw

/-- `parse_form_updates`: the updates and the errors. -/
def parseFormUpdates (registry : Registry) (form : OrderedDict String String) :
    OrderedDict String String × List String :=
  (registry.filterMap fun k d => (parseField form k d).value?,
    registry.items.filterMap fun i => (parseField form i.1 i.2).message?)

/-! ### The deployment -/

/-- The environment of a boot. -/
structure Environment (Key : Type) where
  /-- `EMAIL_SOURCE_MASTER_KEY` -/
  masterKey : Option Key
  /-- What `Fernet.generate_key()` would give. -/
  ephemeral : Key
  allowEphemeral : Bool
  paisaEnabled : Bool
  /-- Some slug of `SEED_CATEGORIES` is not there yet. -/
  newSeedCategories : Bool
  /-- What `new_portfolio_token_secret()` would give. -/
  tokenSecret : String

/-- `CAST(value AS INTEGER)` of SQLite: the number that the text begins with, in 64 bits. -/
def castInteger (text : String) : Int :=
  let magnitude (cs : List Char) : Int :=
    ((cs.takeWhile Char.isDigit).foldl (fun n c => 10 * n + (c.toNat - '0'.toNat)) 0 : Nat)
  let n := match text.toList.dropWhile (· ∈ [' ', '\t', '\n', '\x0b', '\x0c', '\r']) with
    | '-' :: cs => -magnitude cs
    | '+' :: cs => magnitude cs
    | cs => magnitude cs
  max (-9223372036854775808) (min 9223372036854775807 n)

/-- `CAST(CAST(value AS INTEGER) + 1 AS TEXT)`; past 64 bits the sum is a real number. -/
def nextVersion (value : String) : String :=
  if castInteger value = 9223372036854775807 then "9.22337203685478e+18"
  else toString (castInteger value + 1)

example : nextVersion "2" = "3" := by decide +kernel

/-- The bump for new seed categories. -/
def seedWrites {Key : Type} (env : Environment Key) (read : String → Option String) :
    List (String × String) :=
  if env.newSeedCategories then
    [(vocabVersionKey, ((read vocabVersionKey).map nextVersion).getD "2")]
  else []

/-- A setting is taken over from its old key unless it has a text of its own. -/
def renameWrite (read : String → Option String) (keys : String × String) :
    Option (String × String) :=
  if (read keys.1).getD "" ≠ "" ∧ (read keys.2).getD "" = "" then
    some (keys.2, (read keys.1).getD "")
  else none

/-- The migration of the renamed settings, which leaves its marker. -/
def renameWrites (read : String → Option String) : List (String × String) :=
  if (read renameMarker).isSome then []
  else renamedKeys.filterMap (renameWrite read) ++ [(renameMarker, "1")]

def tokenWrites {Key : Type} (env : Environment Key) (read : String → Option String) :
    List (String × String) :=
  if env.paisaEnabled && (read portfolioTokenSecretKey).isNone then
    [(portfolioTokenSecretKey, env.tokenSecret)]
  else []

/-- What `init_db` writes to the settings, by what it reads there; the markers of its other
migrations apart. -/
def initWrites {Key : Type} (env : Environment Key) (read : String → Option String) :
    List (String × String) :=
  seedWrites env read ++ renameWrites read ++ tokenWrites env read

def initDb {Key : Type} (env : Environment Key) (rows : OrderedDict String String) :
    OrderedDict String String :=
  (initWrites env rows.get?).foldl (fun rows w => rows.set w.1 w.2) rows

structure State (Key : Type) where
  rows : OrderedDict String String
  /-- Some email source has credentials. -/
  hasCredentials : Bool
  process : Option (Process Key)

def State.fresh {Key : Type} : State Key := ⟨∅, false, none⟩

inductive Event (Key : Type)
  | boot (env : Environment Key)
  | shutdown
  /-- `POST /settings` -/
  | submit (form : OrderedDict String String) (nonce : String → Nat)
  /-- The save of the Paisa page. -/
  | configure (updates : OrderedDict String String) (nonce : String → Nat)
  /-- Email sources come and go. -/
  | credentials (has : Bool)
  /-- `bump_vocab_version`, in a transaction that is committed or rolled back. -/
  | bump (committed : Bool)
  /-- Another migration leaves its marker, or an older release the row of a renamed setting. -/
  | marker (k value : String)

/-- The keys whose rows `assert_master_key_or_no_secrets` asks for: also those of an extension
that is disabled. -/
def secretKeys (c : Catalogue) (registry : Registry) (k : String) : Bool :=
  isSecret registry k || isSecret c.contributed k

omit [Fernet Key] [UnicodeTables] [DecimalTables] in
/-- `assert_master_key_or_no_secrets` raises `SystemExit`. -/
def refusesBoot (c : Catalogue) (registry : Registry) (env : Environment Key) (s : State Key) :
    Bool :=
  env.masterKey.isNone &&
    (s.hasCredentials || s.rows.items.any fun i => secretKeys c registry i.1 && i.2 ≠ "") &&
    !env.allowEphemeral

omit [Fernet Key] [UnicodeTables] [DecimalTables] in
/-- The fernet of a process. -/
def Environment.fernet (env : Environment Key) : Key := env.masterKey.getD env.ephemeral

omit [Fernet Key] in
def getVocabVersion (p : Process Key) : Int := getSettingInt p vocabVersionKey 1

/-- One request at a time; `none` where it raises or nothing takes it.  A boot that is refused has
written to the rows by then. -/
def step (c : Catalogue) (s : State Key) : Event Key → Option (State Key)
  | .boot env =>
    if s.process.isSome then none
    else
      (registerBuiltinExtensions c.builtin c.contributed env.paisaEnabled).map fun registry =>
        let s' := { s with rows := initDb env s.rows }
        if refusesBoot c registry env s' then s'
        else { s' with process := some ⟨registry, env.fernet, env.masterKey.isSome,
          loadAllSettings registry env.fernet s'.rows⟩ }
  | .shutdown => some { s with process := none }
  | .submit form nonce =>
    s.process.map fun p =>
      let parsed := parseFormUpdates p.registry form
      if parsed.2 ≠ [] then s
      else
        let saved := saveSettings p s.rows parsed.1 nonce
        { s with rows := saved.1, process := some saved.2 }
  | .configure updates nonce =>
    s.process.bind fun p =>
      if ∀ k ∈ updates.keys, c.contributed.get? k ≠ none ∧ p.registry.get? k ≠ none then
        let saved := saveSettings p s.rows updates nonce
        some { s with rows := saved.1, process := some saved.2 }
      else none
  | .credentials has => some { s with hasCredentials := has }
  | .bump committed =>
    s.process.bind fun p =>
      (pyStr (getVocabVersion p + 1)).map fun version =>
        { s with
          rows := if committed then s.rows.set vocabVersionKey version else s.rows
          process := some { p with cache := p.cache.set vocabVersionKey version } }
  | .marker k value =>
    if s.process.isSome ∨ c.builtin.get? k ≠ none ∨ c.contributed.get? k ≠ none then none
    else some { s with rows := s.rows.set k value }

def settings (c : Catalogue) : System (State Key) (Event Key) := ⟨step c⟩

end

/-! ### What is registered -/

section

variable {registry contributed : Registry} {c : Catalogue} {enabled : Bool} {k : String}
  {d : SettingDef}

/-- Every definition of the catalogue. -/
def Catalogue.get? (c : Catalogue) (k : String) : Option SettingDef :=
  c.builtin.get? k <|> c.contributed.get? k

theorem foldlM_contribute : ∀ (items : List (String × SettingDef)) (registry : Registry),
    (items.map Prod.fst).Nodup → (∀ i ∈ items, registry.get? i.1 = none) →
    items.foldlM contribute registry = some (items.foldl (fun r i => r.set i.1 i.2) registry) := by
  intro items
  induction items with
  | nil => intro registry _ _; rfl
  | cons i items ih =>
    intro registry hnodup hnew
    rw [List.map_cons, List.nodup_cons] at hnodup
    have hfirst : contribute registry i = some (registry.set i.1 i.2) := by
      unfold contribute
      rw [hnew i List.mem_cons_self]
    rw [List.foldlM_cons, hfirst]
    refine ih _ hnodup.2 fun j hj => ?_
    rw [OrderedDict.get?_set_of_ne]
    · exact hnew j (List.mem_cons_of_mem i hj)
    · rintro heq
      exact hnodup.1 (heq ▸ List.mem_map_of_mem hj)

theorem foldl_withdraw : ∀ (items : List (String × SettingDef)) (registry : Registry),
    (∀ i ∈ items, registry.get? i.1 = none) → items.foldl withdraw registry = registry := by
  intro items
  induction items with
  | nil => intro registry _; rfl
  | cons i items ih =>
    intro registry hnew
    have hfirst : withdraw registry i = registry := by
      unfold withdraw
      rw [hnew i List.mem_cons_self]
      exact if_neg (by simp)
    rw [List.foldl_cons, hfirst]
    exact ih registry fun j hj => hnew j (List.mem_cons_of_mem i hj)

theorem builtin_of_contributed (i : String × SettingDef) (hi : i ∈ c.contributed.items) :
    c.builtin.get? i.1 = none := by
  have hget : c.contributed.get? i.1 = some i.2 := OrderedDict.mem_items_iff.mp hi
  cases hbuiltin : c.builtin.get? i.1 with
  | none => rfl
  | some d =>
    rw [c.disjoint _ _ hbuiltin] at hget
    cases hget

/-- The registry of a boot. -/
structure Booted (c : Catalogue) (registry : Registry) : Prop where
  builtin : ∀ k d, c.builtin.get? k = some d → registry.get? k = some d
  known : ∀ k d, registry.get? k = some d → c.get? k = some d

/-- **An extension's settings are there where it is enabled**, and nothing else is. -/
theorem booted_of_register
    (h : registerBuiltinExtensions c.builtin c.contributed enabled = some registry) :
    Booted c registry := by
  unfold registerBuiltinExtensions at h
  cases enabled with
  | false =>
    rw [if_neg Bool.false_ne_true, foldl_withdraw _ _ builtin_of_contributed] at h
    obtain rfl := Option.some.inj h
    refine ⟨fun _ _ hk => hk, fun k d hk => ?_⟩
    unfold Catalogue.get?
    rw [hk]
    rfl
  | true =>
    rw [if_pos rfl, foldlM_contribute _ _ c.contributed.nodup builtin_of_contributed] at h
    obtain rfl := Option.some.inj h
    have hget : ∀ k, (c.builtin.update c.contributed).get? k =
        (c.contributed.get? k <|> c.builtin.get? k) := OrderedDict.get?_update _ _
    refine ⟨fun k d hk => ?_, fun k d hk => ?_⟩
    · exact (hget k).trans (by rw [c.disjoint k d hk, hk]; rfl)
    · have hboth := (hget k).symm.trans hk
      unfold Catalogue.get?
      cases hbuiltin : c.builtin.get? k with
      | none =>
        rw [hbuiltin] at hboth
        cases hcontributed : c.contributed.get? k with
        | none =>
          rw [hcontributed] at hboth
          cases hboth
        | some e =>
          rw [hcontributed] at hboth
          exact hboth
      | some e =>
        rw [hbuiltin, c.disjoint k e hbuiltin] at hboth
        exact hboth

theorem isSecret_of_get? (h : registry.get? k = some d) : isSecret registry k = d.secret := by
  unfold isSecret
  rw [h]
  rfl

theorem Booted.vocabVersion (h : Booted c registry) :
    ∃ d, registry.get? vocabVersionKey = some d ∧ d.internal = true ∧ d.secret = false := by
  obtain ⟨d, hd, hinternal, hsecret⟩ := c.vocabVersion
  exact ⟨d, h.builtin _ _ hd, hinternal, hsecret⟩

end

/-! ### What a boot writes -/

section

variable {Key : Type} {env : Environment Key} {read read' : String → Option String}
  {w : String × String}

/-- The keys `init_db` reads or writes. -/
def initKeys : List String :=
  vocabVersionKey :: renameMarker :: portfolioTokenSecretKey ::
    renamedKeys.flatMap fun keys => [keys.1, keys.2]

theorem renamed_mem_initKeys {keys : String × String} (h : keys ∈ renamedKeys) :
    keys.1 ∈ initKeys ∧ keys.2 ∈ initKeys := by
  have hall : ∀ keys ∈ renamedKeys, keys.1 ∈ initKeys ∧ keys.2 ∈ initKeys := by decide
  exact hall keys h

theorem initWrites_congr (h : ∀ k ∈ initKeys, read k = read' k) :
    initWrites env read = initWrites env read' := by
  have hvocab := h vocabVersionKey (by decide)
  have hmarker := h renameMarker (by decide)
  have htoken := h portfolioTokenSecretKey (by decide)
  have hrename : renamedKeys.filterMap (renameWrite read) =
      renamedKeys.filterMap (renameWrite read') := by
    refine List.filterMap_congr fun keys hkeys => ?_
    obtain ⟨hold, hnew⟩ := renamed_mem_initKeys hkeys
    unfold renameWrite
    rw [h _ hold, h _ hnew]
  unfold initWrites seedWrites renameWrites tokenWrites
  rw [hvocab, hmarker, htoken, hrename]

/-- What is written is the vocabulary's version, a renamed setting, or no setting. -/
theorem key_of_mem_initWrites (h : w ∈ initWrites env read) :
    w.1 = vocabVersionKey ∨ (∃ keys ∈ renamedKeys, w.1 = keys.2) ∨ w.1 ∈ unregisteredKeys := by
  unfold initWrites at h
  rcases List.mem_append.mp h with h | h
  · rcases List.mem_append.mp h with h | h
    · unfold seedWrites at h
      split_ifs at h
      · rw [List.mem_singleton.mp h]
        exact .inl rfl
      · cases h
    · unfold renameWrites at h
      split_ifs at h
      · cases h
      · rcases List.mem_append.mp h with h | h
        · obtain ⟨keys, hkeys, hwrite⟩ := List.mem_filterMap.mp h
          unfold renameWrite at hwrite
          split_ifs at hwrite
          obtain rfl := Option.some.inj hwrite
          exact .inr (.inl ⟨keys, hkeys, rfl⟩)
        · rw [List.mem_singleton.mp h]
          exact .inr (.inr (by decide))
  · unfold tokenWrites at h
    split_ifs at h
    · right
      right
      rw [List.mem_singleton.mp h]
      show portfolioTokenSecretKey ∈ unregisteredKeys
      decide
    · cases h

theorem mem_initKeys (h : w ∈ initWrites env read) : w.1 ∈ initKeys := by
  rcases key_of_mem_initWrites h with heq | ⟨keys, hkeys, heq⟩ | hmem
  · rw [heq]
    decide
  · rw [heq]
    exact (renamed_mem_initKeys hkeys).2
  · have hsub : ∀ k ∈ unregisteredKeys, k ∈ initKeys := by decide
    exact hsub _ hmem

end

/-! ### What is loaded and saved -/

section

variable {Key : Type} [Fernet Key] {registry : Registry} {fernet : Key}
  {rows updates : OrderedDict String String} {p : Process Key} {nonce : String → Nat} {k : String}

theorem loaded_of_not_secret {stored : String} (h : isSecret registry k = false) :
    loaded registry fernet k stored = stored := by
  unfold loaded
  rw [h]
  exact if_neg fun hboth => Bool.false_ne_true hboth.1

/-- **What is stored under a fernet is loaded under it.** -/
theorem loaded_storeValue (value : String) :
    loaded registry fernet k (storeValue registry fernet nonce k value) = value := by
  unfold storeValue
  split_ifs with hsecret
  · unfold loaded
    rw [if_pos ⟨hsecret.1, Fernet.encrypt_ne_empty _ _ _⟩, Fernet.decrypt_encrypt]
    rfl
  · unfold loaded
    exact if_neg hsecret

theorem get?_loadAllSettings (registry : Registry) (fernet : Key)
    (rows : OrderedDict String String) (k : String) :
    (loadAllSettings registry fernet rows).get? k =
      match registry.get? k with
      | some d => some (((rows.get? k).map (loaded registry fernet k)).getD d.default)
      | none => rows.get? k := by
  unfold loadAllSettings
  dsimp only
  have hvalues : (rows.filterMap fun k stored => some (loaded registry fernet k stored)).get? k =
      (rows.get? k).map (loaded registry fernet k) := by
    rw [OrderedDict.get?_filterMap]
    cases rows.get? k <;> rfl
  rw [OrderedDict.get?_update, OrderedDict.get?_filterMap, hvalues, OrderedDict.get?_filterMap]
  cases hregistry : registry.get? k with
  | some d =>
    rw [Option.bind_some, hvalues]
    cases rows.get? k <;> rfl
  | none =>
    have hplain : isSecret registry k = false := by
      unfold isSecret
      rw [hregistry]
      rfl
    cases hrow : rows.get? k with
    | none => rfl
    | some stored =>
      rw [Option.map_some, loaded_of_not_secret hplain]
      rfl

omit [Fernet Key] in
theorem get?_changedOf :
    (changedOf p updates).get? k =
      (updates.get? k).bind fun value =>
        if p.cache.get? k = some value then none else some value :=
  OrderedDict.get?_filterMap _ _ _

/-- What a save does to one key: it is written, or left as it is. -/
theorem saveSettings_cases (p : Process Key) (rows updates : OrderedDict String String)
    (nonce : String → Nat) (k : String) :
    (∃ value, updates.get? k = some value ∧ p.cache.get? k ≠ some value ∧
      (saveSettings p rows updates nonce).1.get? k =
        some (storeValue p.registry p.fernet nonce k value) ∧
      (saveSettings p rows updates nonce).2.cache.get? k = some value) ∨
    ((∀ value, updates.get? k = some value → p.cache.get? k = some value) ∧
      (saveSettings p rows updates nonce).1.get? k = rows.get? k ∧
      (saveSettings p rows updates nonce).2.cache.get? k = p.cache.get? k) := by
  unfold saveSettings
  dsimp only
  rw [OrderedDict.get?_update, OrderedDict.get?_update, OrderedDict.get?_filterMap, get?_changedOf]
  cases hupdate : updates.get? k with
  | none =>
    refine .inr ⟨?_, rfl, rfl⟩
    rintro value ⟨⟩
  | some value =>
    by_cases hsame : p.cache.get? k = some value
    · right
      simp only [Option.bind_some, if_pos hsame]
      exact ⟨fun other hother => hother ▸ hsame, rfl, rfl⟩
    · left
      simp only [Option.bind_some, if_neg hsame]
      exact ⟨value, rfl, hsame, rfl, rfl⟩

end

end FinancialDashboard.Settings
