import Factory.Extension.Model
import Factory.Library.Result
import Factory.Library.Dependencies

namespace Extension

open Result

def maxWorkUnits : Nat := 32
def maxFindings : Nat := 32
def maxDependencies : Nat := 32
def maxIdentifierChars : Nat := 128
def maxTitleChars : Nat := 512
def maxDetailChars : Nat := 4096
def maxSummaryChars : Nat := 4096

def requireBoundedText (field value : String) (maxChars : Nat) : Except String Unit := do
  ensure (¬ Text.isBlank value) (field ++ " must not be empty")
  ensure (value.toList.length ≤ maxChars)
    (field ++ " must contain at most " ++ toString maxChars ++ " characters, found " ++
      toString value.toList.length)

structure WorkUnitArgs where
  id : String
  title : String
  description : String
  dependsOn : List String
  deriving DecidableEq

structure ProgressArgs where
  unitId : String
  status : FactoryProgressStatus
  summary : String
  deriving DecidableEq

structure ReviewArgs where
  verdict : FactoryReviewVerdict
  summary : String
  findings : List FactoryReviewFinding
  deriving DecidableEq

def validateUnits : List WorkUnitArgs → List String → Except String Unit
  | [], _ => pure ()
  | unit :: rest, ids => do
      requireBoundedText "work unit id" unit.id maxIdentifierChars
      requireBoundedText "work unit title" unit.title maxTitleChars
      requireBoundedText "work unit description" unit.description maxDetailChars
      ensure (unit.dependsOn.length ≤ maxDependencies)
        ("work unit " ++ unit.id ++ " supports at most " ++ toString maxDependencies ++
          " dependencies")
      ensure (unit.id ∉ ids) ("duplicate Factory work unit id " ++ unit.id)
      validateUnits rest (unit.id :: ids)

def validateDependencies (unitId : String) (ids : List String) :
    List String → List String → Except String Unit
  | [], _ => pure ()
  | dependency :: rest, dependencies => do
      requireBoundedText "work unit dependency ID" dependency maxIdentifierChars
      ensure (dependency ≠ unitId) ("work unit " ++ unitId ++ " cannot depend on itself")
      ensure (dependency ∈ ids)
        ("work unit " ++ unitId ++ " depends on unknown unit " ++ dependency)
      ensure (dependency ∉ dependencies)
        ("work unit " ++ unitId ++ " repeats dependency " ++ dependency)
      validateDependencies unitId ids rest (dependency :: dependencies)

def validateAcyclic (order : List String → List String) (units : List WorkUnitArgs) :
    Except String Unit :=
  ensure (Dependencies.isAcyclic order (units.map (fun unit => (unit.id, unit.dependsOn))))
    "Factory work unit dependencies contain a cycle"

def validateDecomposition (order : List String → List String) (units : List WorkUnitArgs) :
    Except String Unit := do
  ensure (units ≠ []) "Factory decomposition requires at least one work unit"
  ensure (units.length ≤ maxWorkUnits)
    ("Factory decomposition supports at most " ++ toString maxWorkUnits ++ " work units")
  validateUnits units []
  units.forM (fun unit =>
    validateDependencies unit.id (units.map (·.id)) unit.dependsOn [])
  validateAcyclic order units

def decompose (units : List WorkUnitArgs) (state : FactoryState) :
    Except String FactoryState := do
  ensure (state.workUnits = [])
    "factory_decompose may be called only once in a fresh Plan turn"
  pure { state with
    workUnits := units.map (fun unit =>
      ⟨unit.id, unit.title, unit.description, unit.dependsOn, .pending, none⟩)
    review := none
    remediations := []
    reviewHistory := [] }

def completeUnit (unitId summary : String) : List FactoryWorkUnit → List FactoryWorkUnit
  | [] => []
  | unit :: rest =>
    if unit.id = unitId then
      { unit with status := .completed, progressSummary := some summary } :: rest
    else unit :: completeUnit unitId summary rest

def incompleteDependencies (units : List FactoryWorkUnit) (dependsOn : List String) :
    List String :=
  dependsOn.filter (fun dependency =>
    units.any (fun unit => unit.id = dependency ∧ unit.status ≠ .completed))

def validateProgress (args : ProgressArgs) : Except String Unit := do
  requireBoundedText "unit_id" args.unitId maxIdentifierChars
  requireBoundedText "summary" args.summary maxSummaryChars

def progress (args : ProgressArgs) (state : FactoryState) : Except String FactoryState := do
  ensure (args.status = .completed)
    ("factory_update_progress accepts only completed status after implementation and " ++
      "verification")
  let unit ← okOr (state.workUnits.find? (fun unit => unit.id = args.unitId))
    ("unknown Factory work unit " ++ args.unitId)
  ensure (unit.status ≠ .completed)
    ("work unit " ++ args.unitId ++ " is already completed and cannot be rewritten")
  let incomplete := incompleteDependencies state.workUnits unit.dependsOn
  ensure (incomplete = [])
    ("work unit " ++ args.unitId ++ " has incomplete dependencies: " ++
      ", ".intercalate incomplete)
  pure { state with workUnits := completeUnit args.unitId args.summary state.workUnits }

def validateFindings (unitIds : List String) :
    List FactoryReviewFinding → List String → Except String Unit
  | [], _ => pure ()
  | finding :: rest, ids => do
      requireBoundedText "finding id" finding.id maxIdentifierChars
      requireBoundedText "finding unit id" finding.unitId maxIdentifierChars
      requireBoundedText "finding title" finding.title maxTitleChars
      requireBoundedText "finding evidence" finding.evidence maxDetailChars
      requireBoundedText "finding recommendation" finding.recommendation maxDetailChars
      ensure (finding.id ∉ ids) ("duplicate Factory finding id " ++ finding.id)
      ensure (finding.unitId ∈ unitIds)
        ("finding " ++ finding.id ++ " references unknown unit " ++ finding.unitId)
      validateFindings unitIds rest (finding.id :: ids)

def validateReview (args : ReviewArgs) (state : FactoryState) : Except String Unit := do
  requireBoundedText "review summary" args.summary maxSummaryChars
  ensure (args.findings.length ≤ maxFindings)
    ("Factory review supports at most " ++ toString maxFindings ++ " findings")
  ensure (¬ (args.verdict ≠ .approve ∧ args.findings = []))
    "non-approved Factory reviews require at least one finding"
  ensure (¬ (args.verdict = .approve ∧ args.findings ≠ []))
    ("approved Factory reviews require an empty findings array; put passing evidence in " ++
      "the summary")
  validateFindings (state.workUnits.map (·.id)) args.findings []

structure DetachedReviewThreadContext where
  parentThreadId : String
  parentTurnId : String
  deriving DecidableEq

structure ReviewProvenance where
  turnId : Option String
  threadId : Option String
  parentThreadId : Option String
  parentTurnId : Option String
  subagentKind : Option String
  deriving DecidableEq

def detachedProvenance (turnId activeThreadId : String)
    (context : DetachedReviewThreadContext) : ReviewProvenance :=
  ⟨some turnId, some activeThreadId, some context.parentThreadId, some context.parentTurnId,
    some "review"⟩

def review (provenance : ReviewProvenance) (args : ReviewArgs) (state : FactoryState) :
    Except String FactoryState := do
  validateReview args state
  pure (state.recordReview
    ⟨0, provenance.turnId, provenance.threadId, provenance.parentThreadId,
      provenance.parentTurnId, provenance.subagentKind, args.verdict, args.summary,
      args.findings⟩)

def validateDispositions (findings : List (String × String)) :
    List FactoryRemediationRecord → List String → Except String Unit
  | [], _ => pure ()
  | disposition :: rest, seen => do
      requireBoundedText "remediation finding id" disposition.findingId maxIdentifierChars
      requireBoundedText "remediation unit id" disposition.unitId maxIdentifierChars
      requireBoundedText "remediation rationale" disposition.rationale maxDetailChars
      ensure (disposition.findingId ∉ seen)
        ("duplicate remediation disposition for " ++ disposition.findingId)
      let unitId ← okOr (findings.reverse.lookup disposition.findingId)
        ("remediation references unknown finding " ++ disposition.findingId)
      ensure (unitId = disposition.unitId)
        ("remediation " ++ disposition.findingId ++ " must use finding unit " ++ unitId)
      validateDispositions findings rest (disposition.findingId :: seen)

def validateRemediations (dispositions : List FactoryRemediationRecord) (state : FactoryState) :
    Except String Unit := do
  ensure (dispositions ≠ []) "Factory remediation requires at least one disposition"
  ensure (dispositions.length ≤ maxFindings)
    ("Factory remediation supports at most " ++ toString maxFindings ++ " dispositions")
  let review ← okOr state.review "Factory remediation requires a current review"
  validateDispositions (review.findings.map (fun finding => (finding.id, finding.unitId)))
    dispositions []

def remediation (dispositions : List FactoryRemediationRecord) (state : FactoryState) :
    Except String FactoryState := do
  validateRemediations dispositions state
  pure { state with remediations := dispositions }

inductive FactoryTurnStage where
  | plan
  | execute
  | review
  | remediate
  deriving DecidableEq

inductive FactoryToolCall where
  | decompose (order : List String → List String) (units : List WorkUnitArgs)
  | progress (args : ProgressArgs)
  | review (provenance : ReviewProvenance) (args : ReviewArgs)
  | remediation (dispositions : List FactoryRemediationRecord)

namespace FactoryToolCall

def stage : FactoryToolCall → FactoryTurnStage
  | .decompose _ _ => .plan
  | .progress _ => .execute
  | .review _ _ => .review
  | .remediation _ => .remediate

def validate : FactoryToolCall → Except String Unit
  | .decompose order units => validateDecomposition order units
  | .progress args => validateProgress args
  | .review _ _ | .remediation _ => pure ()

def mutate : FactoryToolCall → FactoryState → Except String FactoryState
  | .decompose _ units => Extension.decompose units
  | .progress args => Extension.progress args
  | .review provenance args => Extension.review provenance args
  | .remediation dispositions => Extension.remediation dispositions

end FactoryToolCall

end Extension
