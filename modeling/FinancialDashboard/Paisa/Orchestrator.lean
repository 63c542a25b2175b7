import FinancialDashboard.Paisa.Publisher

/-!
# The orchestrator

`services/paisa/orchestrator.py` is the staged reconcile: `preflight` looks at
the configuration and at the remote before anything is written, `generate`
projects and publishes once, `syncRemote` posts and diagnoses.  `manualSync`
composes the three.

What the stages meet outside is a parameter: the answers of the Paisa client,
the outcome of `project` over the database, the file system, the digest.  Each
of these can also raise something no stage catches; that is the error of
`Except Raised`.

* `generate_refused`: the texts a refused `generate` can carry.
* `generate_of_preflight`: past a preflight that went through, what refuses is
  the projection or the publisher, never the configuration.
-/

namespace FinancialDashboard.Paisa

open PyText

/-- `paisa.mode`. -/
inductive Mode
  | disabled | connect | project
  deriving DecidableEq, Repr

/-- The part of `PaisaProjectionConfig` the stages read. -/
structure ProjectionConfig where
  mode : Mode
  generatedPath : String
  selectedAccountIds : List Int
  /-- A day number. -/
  cutoverDate : Option Int
  ledgerCli : String
  deriving DecidableEq, Repr

namespace ProjectionConfig

def canProject (config : ProjectionConfig) : Bool := config.mode = .project

def readyToProject (config : ProjectionConfig) : Bool :=
  config.cutoverDate.isSome && !config.selectedAccountIds.isEmpty

end ProjectionConfig

inductive SyncOutcome
  | synced | readonly | unsupportedBackend | unreachable | publishFailed | syncRejected
  | diagnosisFailed | notConfigured | connectOnly | disabled
  deriving DecidableEq, Repr

/-- An exception no stage catches: its class and its text. -/
structure Raised where
  type : String
  message : String
  deriving DecidableEq, Repr

/-- What leaves a call of the Paisa client other than by returning. -/
inductive ClientException
  | paisaError (code message : String)
  | other (exc : Raised)
  deriving DecidableEq, Repr

/-- What leaves `project` other than by returning. -/
inductive ProjectException
  | projectionError (message : String)
  | other (exc : Raised)
  deriving DecidableEq, Repr

structure PaisaCapabilities where
  ledgerCli : Option String
  readonly : Bool
  deriving DecidableEq, Repr

structure PaisaSyncResult where
  accepted : Bool
  statusCode : Nat
  reason : Option String
  deriving DecidableEq, Repr

structure ClassifiedDiagnosis where
  expectedCount : Nat
  acceptedCount : Nat
  fatalCount : Nat
  firstFatalMessage : Option String
  deriving DecidableEq, Repr

/-- The rendered journal and the two counts the coordinator reports. -/
structure ProjectionReport where
  journal : String
  emittedCount : Nat
  skippedCount : Nat
  deriving DecidableEq, Repr

/-- The answers of one Paisa client.  `diagnosis` is the upstream diagnosis as
`classify_diagnosis` sorts it against the report. -/
structure PaisaClient where
  fetchConfig : Except ClientException PaisaCapabilities
  syncJournal : Except ClientException PaisaSyncResult
  diagnosis : ProjectionReport → Except ClientException ClassifiedDiagnosis

structure PreviewReport where
  ok : Bool
  report : Option ProjectionReport
  reason : Option String
  deriving DecidableEq, Repr

structure GenerateResult where
  ok : Bool
  report : Option ProjectionReport
  publish : Option PublishResult
  reason : Option String
  deriving DecidableEq, Repr

structure PreflightReport where
  ok : Bool
  outcome : Option SyncOutcome
  reason : Option String
  deriving DecidableEq, Repr

structure RemoteSyncReport where
  ok : Bool
  outcome : SyncOutcome
  postAccepted : Bool
  diagnosisOk : Option Bool
  reason : Option String
  diagnosisExpected : Option Nat
  diagnosisAccepted : Option Nat
  diagnosisFatal : Option Nat
  deriving DecidableEq, Repr

structure SyncReport where
  ok : Bool
  outcome : SyncOutcome
  preview : Option ProjectionReport
  publish : Option PublishResult
  diagnosisOk : Option Bool
  reason : Option String
  diagnosisAccepted : Option Nat
  deriving DecidableEq, Repr

/-! ### Preview and generate -/

def writeBlockedReason (config : ProjectionConfig) : String :=
  if config.mode = .disabled then "disabled" else "connect_only"

def pathNotConfiguredReason : String := "generated_path not configured"

/-- Project without writing. -/
def preview (config : ProjectionConfig) (project : Except ProjectException ProjectionReport) :
    Except Raised PreviewReport :=
  if !config.canProject then pure ⟨false, none, some (writeBlockedReason config)⟩
  else if !config.readyToProject then pure ⟨false, none, some "not_configured"⟩
  else match project with
    | .ok report => pure ⟨true, some report, none⟩
    | .error (.projectionError message) => pure ⟨false, none, some message⟩
    | .error (.other exc) => throw exc

/-- `f"publish_failed: {exc}"`. -/
def publishFailedReason (message : String) : String := "publish_failed: " ++ message

/-- Project and publish once; with the bytes the target holds afterwards, where
the publisher got that far. -/
def generate [UnicodeTables] (config : ProjectionConfig)
    (project : Except ProjectException ProjectionReport) (fs : FileSystem)
    (sha256 : String → String) : Except Raised (GenerateResult × Option Bytes) := do
  let previewed ← preview config project
  match previewed.ok, previewed.report with
  | true, some report =>
    if config.generatedPath = "" then
      return (⟨false, some report, none, some pathNotConfiguredReason⟩, none)
    match publishJournal fs sha256 config.generatedPath report.journal with
    | .ok (result, bytes) => return (⟨true, some report, some result, none⟩, some bytes)
    | .error (.publishError message) =>
      return (⟨false, some report, none, some (publishFailedReason message)⟩, none)
    | .error (.runtimeError message) => throw ⟨"RuntimeError", message⟩
    | .error (.osError message) => throw ⟨"OSError", message⟩
  | _, _ => return (⟨false, none, none, previewed.reason⟩, none)

/-! ### Preflight -/

def unreachableCodes : List String :=
  ["unreachable", "http_error", "bad_json", "redirect_disallowed"]

/-- An empty or unknown backend is `ledger`. -/
def validateBackend [UnicodeTables] (raw : String) : String :=
  let value := lower (strip raw)
  if value ∈ ["ledger", "hledger", "beancount"] then value else "ledger"

def backendMismatchReason [UnicodeTables] (upstream configured : String) : String :=
  "Paisa ledger_cli=" ++ UnicodeTables.repr upstream ++ " does not match configured " ++
    UnicodeTables.repr configured ++ "; only ['ledger', 'hledger', 'beancount'] are " ++
    "supported and the upstream must equal the configured backend."

/-- The gates before any file is written: configuration first, then the remote. -/
def preflight [UnicodeTables] (config : ProjectionConfig) (client : PaisaClient) :
    Except Raised PreflightReport :=
  if !config.canProject then
    pure ⟨false, some (if config.mode = .disabled then .disabled else .connectOnly),
      some (writeBlockedReason config)⟩
  else if !config.readyToProject then
    pure ⟨false, some .notConfigured, some "cutover date or selected accounts missing"⟩
  else if config.generatedPath = "" then
    pure ⟨false, some .notConfigured, some pathNotConfiguredReason⟩
  else match client.fetchConfig with
    | .error (.other exc) => throw exc
    | .error (.paisaError code message) =>
      pure ⟨false, some .unreachable, some (if code ∈ unreachableCodes
        then "could not reach Paisa: " ++ message
        else "config probe failed (" ++ code ++ "): " ++ message)⟩
    | .ok capabilities =>
      if capabilities.readonly then
        pure ⟨false, some .readonly,
          some "Paisa is readonly; /api/sync would report fake success."⟩
      else
        let configured := validateBackend config.ledgerCli
        match capabilities.ledgerCli with
        | some upstream =>
          if upstream ≠ "" && lower (strip upstream) ≠ configured then
            pure ⟨false, some .unsupportedBackend, some (backendMismatchReason upstream configured)⟩
          else pure ⟨true, none, none⟩
        | none => pure ⟨true, none, none⟩

/-! ### The remote stage -/

/-- POST, then diagnosis. -/
def syncRemote (report : ProjectionReport) (client : PaisaClient) :
    Except Raised RemoteSyncReport :=
  match client.syncJournal with
  | .error (.other exc) => throw exc
  | .error (.paisaError code message) =>
    pure ⟨false, if code = "unreachable" then .unreachable else .syncRejected, false, none,
      some ("sync failed (" ++ code ++ "): " ++ message), none, none, none⟩
  | .ok result =>
    if !result.accepted then
      let reason := (result.reason.filter (· ≠ "")).getD ("HTTP " ++ toString result.statusCode)
      pure ⟨false, .syncRejected, false, none, some ("/api/sync rejected: " ++ reason),
        none, none, none⟩
    else match client.diagnosis report with
      | .error (.other exc) => throw exc
      | .error (.paisaError code message) =>
        pure ⟨false, .diagnosisFailed, true, none,
          some ("diagnosis failed (" ++ code ++ "): " ++ message), none, none, none⟩
      | .ok classified =>
        if 0 < classified.fatalCount then
          pure ⟨false, .diagnosisFailed, true, some false,
            some ((classified.firstFatalMessage.filter (· ≠ "")).getD
              (toString classified.fatalCount ++ " unresolved diagnosis danger(s)")),
            some classified.expectedCount, some classified.acceptedCount,
            some classified.fatalCount⟩
        else
          pure ⟨true, .synced, true, some true, none, some classified.expectedCount,
            some classified.acceptedCount, some 0⟩

/-! ### Manual sync -/

/-- The three stages in a row, for the manual route. -/
def manualSync [UnicodeTables] (config : ProjectionConfig) (client : PaisaClient)
    (project : Except ProjectException ProjectionReport) (fs : FileSystem)
    (sha256 : String → String) : Except Raised (SyncReport × Option Bytes) := do
  let pre ← preflight config client
  if !pre.ok then
    return (⟨false, pre.outcome.getD .unreachable, none, none, none, pre.reason, none⟩, none)
  let (generated, bytes) ← generate config project fs sha256
  match generated.ok, generated.report with
  | true, some report =>
    let remote ← syncRemote report client
    return (⟨remote.ok, remote.outcome, some report, generated.publish, remote.diagnosisOk,
      remote.reason, remote.diagnosisAccepted⟩, bytes)
  | _, _ =>
    let outcome := if generated.publish.isNone then SyncOutcome.publishFailed else .syncRejected
    return (⟨false, outcome, generated.report, generated.publish, none, generated.reason, none⟩,
      bytes)

/-! ### What a refusal says -/

section

variable [UnicodeTables] {config : ProjectionConfig} {client : PaisaClient}
  {project : Except ProjectException ProjectionReport} {fs : FileSystem} {sha256 : String → String}

/-- A preflight goes through only on a configuration that has everything. -/
theorem config_of_preflight {pre : PreflightReport} (h : preflight config client = .ok pre)
    (hok : pre.ok = true) :
    config.canProject = true ∧ config.readyToProject = true ∧ config.generatedPath ≠ "" := by
  unfold preflight at h
  by_cases h1 : config.canProject = true
  · by_cases h2 : config.readyToProject = true
    · by_cases h3 : config.generatedPath = ""
      · simp only [h1, h2, h3, Bool.not_true, Bool.false_eq_true, if_false, if_true] at h
        cases h
        exact absurd hok (by simp)
      · exact ⟨h1, h2, h3⟩
    · simp only [h1, h2, Bool.not_true, Bool.false_eq_true, if_false, Bool.not_false, if_true] at h
      cases h
      exact absurd hok (by simp)
  · simp only [h1, Bool.not_false, if_true] at h
    cases h
    exact absurd hok (by simp)

/-- The two ways a configured `generate` is refused, with the text of each. -/
inductive Refusal (config : ProjectionConfig) (project : Except ProjectException ProjectionReport)
    (fs : FileSystem) (sha256 : String → String) : String → Prop
  | projection {message : String} (h : project = .error (.projectionError message)) :
      Refusal config project fs sha256 message
  | publish {report : ProjectionReport} {message : String} (h : project = .ok report)
      (hp : publishJournal fs sha256 config.generatedPath report.journal =
        .error (.publishError message)) :
      Refusal config project fs sha256 (publishFailedReason message)

/-- **Past a preflight that went through, what refuses is the projection or the
publisher.**  None of the three configuration refusals is left. -/
theorem refusal_of_generate {pre : PreflightReport} (h : preflight config client = .ok pre)
    (hok : pre.ok = true) {g : GenerateResult} {bytes : Option Bytes}
    (hg : generate config project fs sha256 = .ok (g, bytes)) (hno : g.ok = false) :
    ∃ reason, g.reason = some reason ∧ Refusal config project fs sha256 reason := by
  obtain ⟨h1, h2, h3⟩ := config_of_preflight h hok
  unfold generate preview at hg
  simp only [h1, h2, h3, Bool.not_true, Bool.false_eq_true, if_false] at hg
  rcases project with e | report
  · rcases e with message | exc
    · cases hg
      exact ⟨message, rfl, .projection rfl⟩
    · cases hg
  · simp only [pure_bind] at hg
    rcases hp : publishJournal fs sha256 config.generatedPath report.journal with e | ⟨result, data⟩
    · rcases e with message | message | message
      · simp only [hp] at hg
        cases hg
        exact ⟨_, rfl, .publish rfl hp⟩
      · simp only [hp] at hg
        cases hg
      · simp only [hp] at hg
        cases hg
    · simp only [hp] at hg
      cases hg
      exact absurd hno (by simp)

end

end FinancialDashboard.Paisa
