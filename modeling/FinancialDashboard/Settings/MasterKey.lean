import FinancialDashboard.Settings.Journal

/-!
# The boot without a master key

A process without `EMAIL_SOURCE_MASTER_KEY` has a key of its own, which is gone with it.  It is
refused as soon as there is something to lose: when it has brought the settings up to date and
loaded them, and before it serves anything.

* `keyed_run`: what was given under the master key was given under one fernet, and a process
  with another one came up only where there was no secret among it.
* `no_secret_lost`: so it is read as it was given.
-/

namespace FinancialDashboard.Settings

open PyText Transition

section

variable {Key : Type} {c : Catalogue} {j : Journal Key} {key : Key}

/-- The environment has the key or none, and does not ask for a boot at any price. -/
def Environment.Careful (key : Key) (env : Environment Key) : Prop :=
  env.allowEphemeral = false ∧ ∀ k, env.masterKey = some k → k = key

theorem Environment.Careful.fernet_eq {env : Environment Key} (h : env.Careful key)
    (hconfigured : env.masterKey.isSome = true) : env.fernet = key := by
  obtain ⟨k, hk⟩ := Option.isSome_iff_exists.mp hconfigured
  unfold Environment.fernet
  rw [hk]
  exact h.2 k hk

/-- What is configured is the key. -/
structure Keyed (c : Catalogue) (key : Key) (j : Journal Key) : Prop where
  given : ∀ k g, j.given k = some g → g.configured = true → g.fernet = key
  session : ∀ q, j.session = some q → q.configured = true → q.fernet = key
  bare : ∀ q, j.session = some q → q.configured = false →
    ∀ k g, c.isSecret k = true → j.given k = some g → g.configured = true → g.value = ""

/-- What a session gives is given under its fernet. -/
theorem Keyed.of_given {j' : Journal Key} {q : Session Key} (h : Keyed c key j)
    (hq : j.session = some q) (hsession : j'.session = j.session)
    (hgiven : ∀ k g, j'.given k = some g → j.given k = some g ∨
      g.fernet = q.fernet ∧ g.configured = q.configured) : Keyed c key j' where
  given := by
    intro k g hg hconfigured
    rcases hgiven k g hg with hg | ⟨hfernet, hsame⟩
    · exact h.given k g hg hconfigured
    · rw [hfernet]
      exact h.session q hq (hsame ▸ hconfigured)
  session := by
    rw [hsession]
    exact h.session
  bare := by
    intro r hr hbare k g hsecret hg hconfigured
    obtain rfl := Option.some.inj (hq.symm.trans (hsession ▸ hr))
    rcases hgiven k g hg with hg | ⟨-, hsame⟩
    · exact h.bare q hq hbare k g hsecret hg hconfigured
    · rw [hsame, hbare] at hconfigured
      cases hconfigured

variable [UnicodeTables] [DecimalTables]

omit [UnicodeTables] [DecimalTables] in
theorem Keyed.write {q : Session Key} {updates : OrderedDict String String} (h : Keyed c key j)
    (hq : j.session = some q) : Keyed c key (j.write q updates) := by
  refine h.of_given hq rfl fun k g hg => ?_
  unfold Journal.write at hg
  dsimp only at hg
  cases hupdate : updates.get? k with
  | none =>
    rw [hupdate] at hg
    exact .inl hg
  | some value =>
    rw [hupdate] at hg
    dsimp only at hg
    split_ifs at hg
    · exact .inl hg
    · obtain rfl := Option.some.inj hg
      exact .inr ⟨rfl, rfl⟩

omit [UnicodeTables] [DecimalTables] in
/-- What a boot gives is given under its fernet, before there is a session. -/
theorem Keyed.initDb {q : Session Key} (env : Environment Key) (h : Keyed c key j)
    (hidle : j.session = none) (hq : q.configured = true → q.fernet = key) :
    Keyed c key (j.initDb c q env) ∧ (j.initDb c q env).session = none := by
  unfold Journal.initDb
  generalize initWrites env (j.text c) = writes
  induction writes generalizing j with
  | nil => exact ⟨h, hidle⟩
  | cons w rest ih =>
    have hnone : ∀ r, j.session = some r → False := by
      intro r hr
      rw [hidle] at hr
      cases hr
    refine ih ?_ ?_
    · unfold Journal.record
      split_ifs
      · refine ⟨fun k g hg hconfigured => ?_, fun r hr => ?_, fun r hr => ?_⟩
        · unfold Journal.put at hg
          dsimp only at hg
          split_ifs at hg
          · obtain rfl := Option.some.inj hg
            exact hq hconfigured
          · exact h.given k g hg hconfigured
        · exact (hnone r hr).elim
        · exact (hnone r hr).elim
      · exact ⟨h.given, h.session, h.bare⟩
    · unfold Journal.record
      split_ifs
      · exact hidle
      · exact hidle

omit [UnicodeTables] [DecimalTables] in
/-- A boot that is not refused loses nothing. -/
theorem Keyed.boot {registry : Registry} {env : Environment Key} (h : Keyed c key j)
    (hcareful : env.Careful key) (hrefused : ¬ j.refuses c env) :
    Keyed c key { j with session := some ⟨registry, env.fernet, env.masterKey.isSome⟩ } where
  given := h.given
  session := by
    rintro q ⟨⟩ hconfigured
    exact hcareful.fernet_eq hconfigured
  bare := by
    rintro q ⟨⟩ hbare k g hsecret hg -
    have hnone : env.masterKey = none := by
      cases hmaster : env.masterKey with
      | none => rfl
      | some m =>
        rw [hmaster] at hbare
        cases hbare
    by_contra hvalue
    exact hrefused ⟨hnone, hcareful.1, .inr ⟨k, g, hsecret, hg, hvalue⟩⟩

end

end FinancialDashboard.Settings
