import FinancialDashboard.Settings.Journal

/-!
# What the form lets through

The settings are texts, and the readers that make numbers and flags of them fall back to a default
where they cannot.  The form checks what is typed, so that they have to only where the default of
the setting is no text of its type, as the blank one of a number is not.

* `accepted_of_parseField`: what a field may become.
* `settings_valid`: in every run a setting is its default or a text of its type.
-/

namespace FinancialDashboard.Settings

open PyText Transition

section

variable {Key : Type} [UnicodeTables] [DecimalTables] {c : Catalogue}

/-- The text reads as what the setting is. -/
inductive Typed : DataType → String → Prop
  | str (value : String) : Typed .str value
  | int {value : String} {n : Int} (h : pyInt value = some n) : Typed .int value
  | on : Typed .bool "true"
  | off : Typed .bool "false"
  | json (parts : List Int) : Typed .json (dumpInts parts)

/-- The default, or a text of the type that is one of the choices where there are any. -/
def Accepted (d : SettingDef) (value : String) : Prop :=
  value = d.default ∨ Typed d.dataType value ∧
    (d.dataType = .bool ∨ d.choices = [] ∨ value = "" ∨ value ∈ d.choices)

theorem typed_of_checkType {d : SettingDef} {raw value : String} (hbool : d.dataType ≠ .bool)
    (h : checkType d raw = .ok value) : value = d.default ∨ Typed d.dataType value := by
  unfold checkType at h
  cases htype : d.dataType with
  | str =>
    rw [htype] at h
    exact .inr (.str value)
  | bool => exact absurd htype hbool
  | int =>
    rw [htype] at h
    dsimp only at h
    split_ifs at h with hblank hnumber
    · exact .inl (Except.ok.inj h).symm
    · obtain rfl := Except.ok.inj h
      obtain ⟨n, hn⟩ := Option.isSome_iff_exists.mp hnumber
      exact .inr (.int hn)
  | json =>
    rw [htype] at h
    dsimp only at h
    split_ifs at h with hblank
    · exact .inl (Except.ok.inj h).symm
    · cases hparts : splitInts raw with
      | none =>
        rw [hparts] at h
        cases h
      | some parts =>
        rw [hparts] at h
        obtain rfl := Except.ok.inj h
        exact .inr (.json parts)

/-- **A field becomes a text of its type**, or the default. -/
theorem accepted_of_parseField {form : OrderedDict String String} {k value : String}
    {d : SettingDef} (h : parseField form k d = .update value) : Accepted d value := by
  unfold parseField at h
  split_ifs at h with hinternal hbool hflag
  · obtain rfl := FieldResult.update.inj h
    exact .inr ⟨hbool ▸ .on, .inl hbool⟩
  · obtain rfl := FieldResult.update.inj h
    exact .inr ⟨hbool ▸ .off, .inl hbool⟩
  · cases hform : form.get? k with
    | none =>
      rw [hform] at h
      cases h
    | some text =>
      rw [hform] at h
      dsimp only at h
      split_ifs at h with hsecret
      cases hcheck : checkType d (strip text) with
      | error message =>
        rw [hcheck] at h
        cases h
      | ok raw =>
        rw [hcheck] at h
        dsimp only at h
        split_ifs at h with hchoice
        obtain rfl := FieldResult.update.inj h
        rcases typed_of_checkType hbool hcheck with hdefault | htyped
        · exact .inl hdefault
        · refine .inr ⟨htyped, .inr ?_⟩
          by_contra hnone
          push Not at hnone
          exact hchoice ⟨hnone.1, hnone.2.1, hnone.2.2⟩

/-- What a built-in setting of the form was given is accepted. -/
def GivenAccepted (c : Catalogue) (j : Journal Key) : Prop :=
  ∀ k d g, c.builtin.get? k = some d → d.internal = false → j.given k = some g → Accepted d g.value

theorem givenAccepted_write {j : Journal Key} {q : Session Key}
    {updates : OrderedDict String String} (h : GivenAccepted c j)
    (hupdates : ∀ k d value, c.builtin.get? k = some d → d.internal = false →
      updates.get? k = some value → Accepted d value) : GivenAccepted c (j.write q updates) := by
  intro k d g hd hinternal hg
  unfold Journal.write at hg
  dsimp only at hg
  cases hupdate : updates.get? k with
  | none =>
    rw [hupdate] at hg
    exact h k d g hd hinternal hg
  | some value =>
    rw [hupdate] at hg
    dsimp only at hg
    split_ifs at hg
    · exact h k d g hd hinternal hg
    · obtain rfl := Option.some.inj hg
      exact hupdates k d value hd hinternal hupdate

/-- A renamed setting takes over free text, and nothing else of the form is written by a boot. -/
theorem givenAccepted_initDb {j : Journal Key} {q : Session Key} {env : Environment Key}
    (h : GivenAccepted c j) : GivenAccepted c (j.initDb c q env) := by
  have hwrites : ∀ w ∈ initWrites env (j.text c), ∀ d, c.builtin.get? w.1 = some d →
      d.internal = false → Accepted d w.2 := by
    intro w hw d hd hinternal
    rcases key_of_mem_initWrites hw with hkey | ⟨keys, hkeys, hkey⟩ | hunregistered
    · obtain ⟨v, hv, hhidden, -⟩ := c.vocabVersion
      rw [hkey] at hd
      obtain rfl := Option.some.inj (hv.symm.trans hd)
      rw [hinternal] at hhidden
      cases hhidden
    · obtain ⟨e, he, hplain⟩ := c.identifiers keys hkeys
      rw [hkey] at hd
      obtain rfl := Option.some.inj (he.symm.trans hd)
      exact .inr ⟨hplain.dataType ▸ .str w.2, .inr (.inl hplain.choices)⟩
    · rw [(c.unregistered _ hunregistered).1] at hd
      cases hd
  unfold Journal.initDb
  generalize initWrites env (j.text c) = writes at hwrites
  induction writes generalizing j with
  | nil => exact h
  | cons w rest ih =>
    refine ih ?_ fun v hv => hwrites v (List.mem_cons_of_mem w hv)
    intro k d g hd hinternal hg
    unfold Journal.record at hg
    split_ifs at hg
    · unfold Journal.put at hg
      dsimp only at hg
      split_ifs at hg with hk
      · obtain rfl := Option.some.inj hg
        exact hwrites w List.mem_cons_self d (hk ▸ hd) hinternal
      · exact h k d g hd hinternal hg
    · exact h k d g hd hinternal hg

/-- The session's registry is that of a boot. -/
def SessionBooted (c : Catalogue) (j : Journal Key) : Prop :=
  ∀ q, j.session = some q → Booted c q.registry

theorem givenAccepted_step {j t : Journal Key} {e : Event Key} (hbooted : SessionBooted c j)
    (h : GivenAccepted c j) (ht : (journal c).step j e = some t) : GivenAccepted c t := by
  cases e with
  | boot env =>
    replace ht : journalStep c j (.boot env) = some t := ht
    simp only [journalStep] at ht
    split_ifs at ht
    obtain ⟨registry, -, rfl⟩ := Option.map_eq_some_iff.mp ht
    split_ifs
    · exact givenAccepted_initDb h
    · exact givenAccepted_initDb h
  | shutdown =>
    cases ht
    exact h
  | submit form nonce =>
    obtain ⟨q, hq, rfl⟩ := Option.map_eq_some_iff.mp ht
    dsimp only
    split_ifs
    · exact h
    · refine givenAccepted_write h fun k d value hd _ hvalue => ?_
      unfold parseFormUpdates at hvalue
      rw [OrderedDict.get?_filterMap, (hbooted q hq).builtin k d hd, Option.bind_some] at hvalue
      cases hfield : parseField form k d with
      | skip =>
        rw [hfield] at hvalue
        cases hvalue
      | error message =>
        rw [hfield] at hvalue
        cases hvalue
      | update new =>
        rw [hfield] at hvalue
        obtain rfl := Option.some.inj hvalue
        exact accepted_of_parseField hfield
  | configure updates nonce =>
    obtain ⟨q, hq, hstep⟩ := Option.bind_eq_some_iff.mp ht
    split_ifs at hstep with hkeys
    cases hstep
    refine givenAccepted_write h fun k d value hd _ hvalue => ?_
    -- the page writes settings of the extension only
    have hmem : k ∈ updates.keys := OrderedDict.mem_keys_iff.mpr (by rw [hvalue]; simp)
    exact absurd (c.disjoint k d hd) (hkeys k hmem).1
  | credentials has =>
    cases ht
    exact h
  | bump committed =>
    obtain ⟨q, hq, hstep⟩ := Option.bind_eq_some_iff.mp ht
    obtain ⟨text, -, rfl⟩ := Option.map_eq_some_iff.mp hstep
    split_ifs
    · intro k d g hd hinternal hg
      unfold Journal.put at hg
      dsimp only at hg
      split_ifs at hg with hk
      · subst hk
        obtain ⟨v, hv, hhidden, -⟩ := c.vocabVersion
        obtain rfl := Option.some.inj (hv.symm.trans hd)
        rw [hinternal] at hhidden
        cases hhidden
      · exact h k d g hd hinternal hg
    · exact h
  | marker k value =>
    replace ht : journalStep c j (.marker k value) = some t := ht
    simp only [journalStep] at ht
    split_ifs at ht
    obtain rfl := Option.some.inj ht
    exact h

/-- The store does what the journal says, and what the journal was given is accepted. -/
theorem settings_simulates_accepted [Fernet Key] (c : Catalogue) :
    (settings c : System (State Key) (Event Key)).Simulates (journal c) (fun _ e => Kept e)
      (fun s j => Refines c s j ∧ GivenAccepted c j) := by
  rintro s j e t ⟨hrefines, haccepted⟩ hkept ht
  obtain ⟨i, hi, hrefines'⟩ := settings_simulates c s j e t hrefines hkept ht
  refine ⟨i, hi, hrefines', givenAccepted_step (fun q hq => ?_) haccepted hi⟩
  rw [hrefines.session] at hq
  obtain ⟨p, hp, rfl⟩ := Option.map_eq_some_iff.mp hq
  exact hrefines.booted p hp

/-- **What is typed in can be read.**  In every run whose bumps are committed, a process reads under
each built-in setting that the form shows, and that is no secret, its default or a text of
its type: a number under one that is read as a number, `true` or `false` under a flag, the
text of a list of numbers under a schedule, and one of the choices where there are any. -/
theorem settings_valid [Fernet Key] {es : List (Event Key)} {s : State Key} {p : Process Key}
    (hkept : ∀ e ∈ es, Kept e) (h : (settings c).exec .fresh es = some s)
    (hp : s.process = some p) {k : String} {d : SettingDef} (hd : c.builtin.get? k = some d)
    (hinternal : d.internal = false) (hsecret : d.secret = false) :
    ∃ value, getSetting p k = some value ∧ Accepted d value := by
  have hfresh : Refines c (.fresh : State Key) .fresh ∧ GivenAccepted c (.fresh : Journal Key) :=
    ⟨refines_fresh, by rintro k d g - - ⟨⟩⟩
  obtain ⟨j, -, hrefines, haccepted⟩ := (settings_simulates_accepted c).exec hfresh
    (System.meets_of_forall es _ hkept) h
  have hregistered := (hrefines.booted p hp).builtin k d hd
  have hread : getSetting p k = some (p.session.read d (j.given k)) := by
    unfold getSetting
    rw [hrefines.reads p hp k d hregistered]
    rfl
  refine ⟨_, hread, ?_⟩
  cases hgiven : j.given k with
  | none => exact .inl rfl
  | some g =>
    have hvalue : p.session.read d (some g) = g.value :=
      if_neg fun hboth => Bool.false_ne_true (hsecret.symm.trans hboth.1)
    rw [hvalue]
    exact haccepted k d g hd hinternal hgiven

end

theorem settings_valid_interval :
    let _ := asciiTables
    let _ := asciiDecimals
    let _ := plainFernet
    ∃ s p d value, (settings sampleCatalogue).exec .fresh lostBumpEvents.dropLast = some s ∧
      s.process = some p ∧ sampleCatalogue.builtin.get? "poll_interval_minutes" = some d ∧
      getSetting p "poll_interval_minutes" = some value ∧ Accepted d value := by
  intro _ _ _
  have hruns : (((settings sampleCatalogue).exec .fresh lostBumpEvents.dropLast).bind
      (·.process)).isSome = true := by decide +kernel
  obtain ⟨p, hp⟩ := Option.isSome_iff_exists.mp hruns
  obtain ⟨s, hs, hp⟩ := Option.bind_eq_some_iff.mp hp
  have hkept : ∀ e ∈ lostBumpEvents.dropLast, Kept e := by
    unfold lostBumpEvents Kept
    simp
  obtain ⟨value, hvalue, haccepted⟩ := settings_valid hkept hs hp
    (k := "poll_interval_minutes") rfl rfl rfl
  exact ⟨s, p, _, value, hs, hp, rfl, hvalue, haccepted⟩

end FinancialDashboard.Settings
