import Factory.Extension.Tools

namespace Runtime

open Extension Result

inductive StageValidationError where
  | unknownOperationKind (kind : String)
  | missing (field : String)
  | invalid (field detail : String)
  deriving DecidableEq

def StageValidationError.message : StageValidationError → String
  | .unknownOperationKind kind => "unknown Factory operation kind " ++ Text.debug kind
  | .missing field => "Factory state is missing " ++ field
  | .invalid field detail => "invalid Factory " ++ field ++ ": " ++ detail

abbrev StageResult (α : Type) := Except StageValidationError α

inductive OperationKind where
  | plan
  | execute
  | review
  | remediate
  | iterate
  deriving DecidableEq

namespace OperationKind

def all : List OperationKind := [.plan, .execute, .review, .remediate]

def atOrdinal (ordinal : Nat) : OperationKind :=
  match all[ordinal]? with
  | some kind => kind
  | none =>
    match (ordinal - all.length) % 3 with
    | 0 => .iterate
    | 1 => .review
    | _ => .remediate

def asWireName : OperationKind → String
  | .plan => "codex.plan"
  | .execute => "codex.execute"
  | .review => "codex.review"
  | .remediate => "codex.remediate"
  | .iterate => "codex.iterate"

def fromStr (value : String) : StageResult OperationKind :=
  if value = "codex.plan" then .ok .plan
  else if value = "codex.execute" then .ok .execute
  else if value = "codex.review" then .ok .review
  else if value = "codex.remediate" then .ok .remediate
  else if value = "codex.iterate" then .ok .iterate
  else .error (.unknownOperationKind value)

def turnStage : OperationKind → FactoryTurnStage
  | .plan => .plan
  | .execute | .iterate => .execute
  | .review => .review
  | .remediate => .remediate

end OperationKind

def requireText (field value : String) : StageResult Unit :=
  ensure (¬ Text.isBlank value) (.invalid field "must not be empty")

def requireOptionalText (field : String) (value : Option String) : StageResult String := do
  let value ← okOr value (.missing field)
  requireText field value
  pure value

structure ReviewBaseline where
  generation : Nat
  parentThreadId : String
  parentTurnId : String
  deriving DecidableEq

namespace ReviewBaseline

def fromParts (generation : Nat) (parentThreadId parentTurnId : String) :
    StageResult ReviewBaseline := do
  requireText "review parent thread id" parentThreadId
  requireText "review parent turn id" parentTurnId
  pure ⟨generation, parentThreadId, parentTurnId⟩

def capture (state : FactoryState) (parentThreadId parentTurnId : String) :
    StageResult ReviewBaseline :=
  fromParts ((state.review.map (·.generation)).getD 0) parentThreadId parentTurnId

end ReviewBaseline

def debugStatus : FactoryProgressStatus → String
  | .pending => "Pending"
  | .inProgress => "InProgress"
  | .completed => "Completed"
  | .blocked => "Blocked"

def validateUnitTexts : List FactoryWorkUnit → List String → StageResult Unit
  | [], _ => pure ()
  | unit :: rest, ids => do
      requireText "work unit id" unit.id
      requireText "work unit title" unit.title
      requireText "work unit description" unit.description
      ensure (unit.id ∉ ids)
        (.invalid "work-unit decomposition" ("duplicate unit id " ++ unit.id))
      validateUnitTexts rest (unit.id :: ids)

def validateUnitDependencies (unitId : String) (ids : List String) :
    List String → List String → StageResult Unit
  | [], _ => pure ()
  | dependency :: rest, dependencies => do
      requireText "work unit dependency" dependency
      ensure (dependency ≠ unitId)
        (.invalid "work-unit decomposition" ("unit " ++ unitId ++ " depends on itself"))
      ensure (dependency ∈ ids)
        (.invalid "work-unit decomposition"
          ("unit " ++ unitId ++ " depends on unknown unit " ++ dependency))
      ensure (dependency ∉ dependencies)
        (.invalid "work-unit decomposition"
          ("unit " ++ unitId ++ " repeats dependency " ++ dependency))
      validateUnitDependencies unitId ids rest (dependency :: dependencies)

def validateAcyclic (order : List String → List String) (units : List FactoryWorkUnit) :
    StageResult Unit :=
  ensure (Dependencies.isAcyclic order (units.map (fun unit => (unit.id, unit.dependsOn))))
    (.invalid "work-unit decomposition" "dependency graph contains a cycle")

def validateDecomposition (order : List String → List String) (state : FactoryState) :
    StageResult Unit := do
  ensure (state.workUnits ≠ []) (.missing "work-unit decomposition")
  validateUnitTexts state.workUnits []
  state.workUnits.forM (fun unit =>
    validateUnitDependencies unit.id (state.workUnits.map (·.id)) unit.dependsOn [])
  validateAcyclic order state.workUnits

def validatePlan (order : List String → List String) (state : FactoryState) :
    StageResult Unit := do
  validateDecomposition order state
  state.workUnits.forM (fun unit => do
    ensure (unit.status = .pending)
      (.invalid "planning state"
        ("unit " ++ unit.id ++ " has execution status " ++ debugStatus unit.status))
    ensure (unit.progressSummary = none)
      (.invalid "planning state" ("unit " ++ unit.id ++ " has an execution progress summary")))
  ensure (state.review = none ∧ state.remediations = [] ∧ state.reviewHistory = [])
    (.invalid "planning state" "planning must not record review or remediation results")

def validateExecute (order : List String → List String) (state : FactoryState) :
    StageResult Unit := do
  validateDecomposition order state
  state.workUnits.forM (fun unit => do
    ensure (unit.status = .completed)
      (.invalid "execution progress" ("unit " ++ unit.id ++ " is not completed"))
    let summary ← okOr unit.progressSummary
      (.invalid "execution progress" ("unit " ++ unit.id ++ " has no progress summary"))
    requireText "work unit progress summary" summary)

def validateGeneration (report : FactoryReviewReport) (baseline : Option ReviewBaseline) :
    StageResult Unit := do
  ensure (report.generation ≠ 0) (.invalid "review generation" "generation must be positive")
  match baseline with
  | none => pure ()
  | some baseline =>
    ensure (baseline.generation < report.generation)
      (.invalid "review generation"
        ("generation " ++ toString report.generation ++ " did not advance beyond " ++
          toString baseline.generation))

def validateParent (parentThreadId parentTurnId : String) :
    Option ReviewBaseline → StageResult Unit
  | none => pure ()
  | some baseline => do
      ensure (parentThreadId = baseline.parentThreadId)
        (.invalid "review provenance"
          ("parent thread is " ++ Text.debug parentThreadId ++ ", expected " ++
            Text.debug baseline.parentThreadId))
      ensure (parentTurnId = baseline.parentTurnId)
        (.invalid "review provenance"
          ("parent turn is " ++ Text.debug parentTurnId ++ ", expected " ++
            Text.debug baseline.parentTurnId))

def validateProvenance (report : FactoryReviewReport) (baseline : Option ReviewBaseline) :
    StageResult Unit := do
  let _ ← requireOptionalText "review recorded turn id" report.recordedTurnId
  let threadId ← requireOptionalText "review recorded thread id" report.recordedThreadId
  let parentThreadId ←
    requireOptionalText "review recorded parent thread id" report.recordedParentThreadId
  let parentTurnId ←
    requireOptionalText "review recorded parent turn id" report.recordedParentTurnId
  let kind ← requireOptionalText "review recorded subagent kind" report.recordedSubagentKind
  ensure (kind = "review")
    (.invalid "review provenance" ("subagent kind must be review, found " ++ Text.debug kind))
  ensure (threadId ≠ parentThreadId)
    (.invalid "review provenance" "review thread must differ from its parent thread")
  validateParent parentThreadId parentTurnId baseline

def validateReportFindings (unitIds : List String) :
    List FactoryReviewFinding → List String → StageResult Unit
  | [], _ => pure ()
  | finding :: rest, ids => do
      requireText "review finding id" finding.id
      requireText "review finding unit id" finding.unitId
      requireText "review finding title" finding.title
      requireText "review finding evidence" finding.evidence
      requireText "review finding recommendation" finding.recommendation
      ensure (finding.id ∉ ids)
        (.invalid "review findings" ("duplicate finding id " ++ finding.id))
      ensure (finding.unitId ∈ unitIds)
        (.invalid "review findings"
          ("finding " ++ finding.id ++ " references unknown unit " ++ finding.unitId))
      validateReportFindings unitIds rest (finding.id :: ids)

def validateReviewReport (report : FactoryReviewReport) (state : FactoryState)
    (baseline : Option ReviewBaseline) : StageResult Unit := do
  validateGeneration report baseline
  requireText "review summary" report.summary
  validateProvenance report baseline
  ensure (¬ (report.verdict ≠ .approve ∧ report.findings = []))
    (.invalid "review findings" "a non-approved review requires at least one finding")
  ensure (¬ (report.verdict = .approve ∧ report.findings ≠ []))
    (.invalid "review findings" "an approved review must not contain findings")
  validateReportFindings (state.workUnits.map (·.id)) report.findings []

def validateReview (order : List String → List String) (state : FactoryState)
    (baseline : ReviewBaseline) : StageResult Unit := do
  validateExecute order state
  let report ← okOr state.review (.missing "review")
  validateReviewReport report state (some baseline)

def validateRecords (findings : List (String × String)) :
    List FactoryRemediationRecord → List String → StageResult Unit
  | [], _ => pure ()
  | record :: rest, seen => do
      requireText "remediation finding id" record.findingId
      requireText "remediation unit id" record.unitId
      requireText "remediation rationale" record.rationale
      ensure (record.findingId ∉ seen)
        (.invalid "remediation" ("duplicate record for finding " ++ record.findingId))
      let unitId ← okOr (findings.reverse.lookup record.findingId)
        (.invalid "remediation" ("unknown finding " ++ record.findingId))
      ensure (unitId = record.unitId)
        (.invalid "remediation"
          ("finding " ++ record.findingId ++ " belongs to unit " ++ unitId ++ ", not " ++
            record.unitId))
      validateRecords findings rest (record.findingId :: seen)

def validateDispositions (report : FactoryReviewReport)
    (records : List FactoryRemediationRecord) : StageResult Unit :=
  if report.verdict = .approve then
    ensure (records = [])
      (.invalid "remediation" "an approved review must not have remediation records")
  else do
    ensure (records.length = report.findings.length)
      (.invalid "remediation"
        ("expected " ++ toString report.findings.length ++ " records, found " ++
          toString records.length))
    validateRecords (report.findings.map (fun finding => (finding.id, finding.unitId))) records []

def validateRemediation (order : List String → List String) (state : FactoryState) :
    StageResult Unit := do
  validateExecute order state
  let report ← okOr state.review (.missing "review")
  validateReviewReport report state none
  validateDispositions report state.remediations

def OperationKind.validate (order : List String → List String) (kind : OperationKind)
    (state : FactoryState) (baseline : Option ReviewBaseline) : StageResult Unit :=
  match kind with
  | .plan => validatePlan order state
  | .execute | .iterate => validateExecute order state
  | .review => do
      let baseline ← okOr baseline (.missing "review baseline")
      validateReview order state baseline
  | .remediate => validateRemediation order state

end Runtime
