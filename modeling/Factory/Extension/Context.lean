import Factory.Extension.StateValue
import Factory.Library.JsonCompact

namespace Extension

open Json Serde

def maxContextChars : Nat := 32768
def maxContextFieldChars : Nat := 2000
def maxContextRemediations : Nat := 20
def maxContextSubagentActivities : Nat := 24
def minContextItems : Nat := 4
def minContextFieldChars : Nat := 128

def truncateChars (value : String) (limit : Nat) : String :=
  if value.toList.length ≤ limit then value
  else String.ofList (value.toList.take (limit - 3) ++ "...".toList.take (min 3 limit))

inductive FactoryStateDurability where
  | processMemory
  | durable
  deriving DecidableEq

def FactoryStateDurability.text : FactoryStateDurability → String
  | .processMemory => "process_memory"
  | .durable => "durable"

structure FactoryContextState where
  revision : Nat
  workUnits : List FactoryWorkUnit
  review : Option FactoryReviewReport
  remediations : List FactoryRemediationRecord
  subagents : List FactorySubagentActivity
  subagentHistory : Option FactorySubagentHistory
  omittedWorkUnits : Nat
  omittedFindings : Nat
  omittedRemediations : Nat
  omittedSubagentActivities : Nat
  reviewOmitted : Bool
  deriving DecidableEq

def FactoryContextState.toValue (state : FactoryContextState) : Value :=
  .object
    [("revision", unsigned state.revision),
      ("work_units", .array (state.workUnits.map FactoryWorkUnit.toValue)),
      ("review", optionalValue FactoryReviewReport.toValue state.review),
      ("remediations", .array (state.remediations.map FactoryRemediationRecord.toValue)),
      ("subagents", .array (state.subagents.map FactorySubagentActivity.toValue)),
      ("subagent_history", optionalValue FactorySubagentHistory.toValue state.subagentHistory),
      ("omitted_work_units", unsigned state.omittedWorkUnits),
      ("omitted_findings", unsigned state.omittedFindings),
      ("omitted_remediations", unsigned state.omittedRemediations),
      ("omitted_subagent_activities", unsigned state.omittedSubagentActivities),
      ("review_omitted", .bool state.reviewOmitted)]

structure FactoryContextSnapshot where
  source : String
  threadId : String
  durability : String
  state : FactoryContextState
  deriving DecidableEq

def FactoryContextSnapshot.toValue (snapshot : FactoryContextSnapshot) : Value :=
  .object
    [("source", .string snapshot.source), ("thread_id", .string snapshot.threadId),
      ("durability", .string snapshot.durability), ("state", snapshot.state.toValue)]

def boundedUnit (limit textLimit : Nat) (unit : FactoryWorkUnit) : FactoryWorkUnit :=
  { unit with
    id := truncateChars unit.id maxIdentifierChars
    title := truncateChars unit.title textLimit
    description := truncateChars unit.description textLimit
    dependsOn := (unit.dependsOn.take limit).map (truncateChars · maxIdentifierChars)
    progressSummary := unit.progressSummary.map (truncateChars · textLimit) }

def incompleteIndices (units : List FactoryWorkUnit) : List Nat :=
  (units.zipIdx.filter (fun entry => entry.1.status ≠ .completed)).map Prod.snd

def selectedUnits (units : List FactoryWorkUnit) (limit : Nat) : List Nat :=
  (selectRecent limit (List.range units.length).reverse
    ((incompleteIndices units).take limit).reverse).insertionSort (· ≤ ·)

def boundedWorkUnits (units : List FactoryWorkUnit) (limit textLimit : Nat) :
    List FactoryWorkUnit :=
  (selectedUnits units limit).filterMap (fun index =>
    units[index]?.map (boundedUnit limit textLimit))

def boundedOptionalId (value : Option String) : Option String :=
  value.map (truncateChars · maxIdentifierChars)

def boundedFinding (textLimit : Nat) (finding : FactoryReviewFinding) : FactoryReviewFinding :=
  { finding with
    id := truncateChars finding.id maxIdentifierChars
    unitId := truncateChars finding.unitId maxIdentifierChars
    title := truncateChars finding.title textLimit
    evidence := truncateChars finding.evidence textLimit
    recommendation := truncateChars finding.recommendation textLimit }

def boundedReview (review : Option FactoryReviewReport) (findingLimit textLimit : Nat) :
    Option FactoryReviewReport × Nat :=
  match review with
  | none => (none, 0)
  | some review =>
    (some
      { review with
        summary := truncateChars review.summary textLimit
        recordedTurnId := boundedOptionalId review.recordedTurnId
        recordedThreadId := boundedOptionalId review.recordedThreadId
        recordedParentThreadId := boundedOptionalId review.recordedParentThreadId
        recordedParentTurnId := boundedOptionalId review.recordedParentTurnId
        recordedSubagentKind := boundedOptionalId review.recordedSubagentKind
        findings := (review.findings.take findingLimit).map (boundedFinding textLimit) },
      review.findings.length - findingLimit)

def boundedRecord (textLimit : Nat) (record : FactoryRemediationRecord) :
    FactoryRemediationRecord :=
  { record with
    findingId := truncateChars record.findingId maxIdentifierChars
    unitId := truncateChars record.unitId maxIdentifierChars
    rationale := truncateChars record.rationale textLimit }

def boundedSubagentHistory (history : Option FactorySubagentHistory) :
    Option FactorySubagentHistory :=
  history.map (fun history =>
    { history with eventKind := truncateChars history.eventKind maxIdentifierChars })

def boundedAgent (textLimit : Nat) (agent : FactorySubagentState) : FactorySubagentState :=
  { agent with
    threadId := truncateChars agent.threadId maxIdentifierChars
    message := agent.message.map (truncateChars · textLimit) }

def boundedActivity (nestedLimit textLimit : Nat) (activity : FactorySubagentActivity) :
    FactorySubagentActivity :=
  { activity with
    callId := truncateChars activity.callId maxIdentifierChars
    turnId := truncateChars activity.turnId maxIdentifierChars
    senderThreadId := truncateChars activity.senderThreadId maxIdentifierChars
    createdAt := truncateChars activity.createdAt maxIdentifierChars
    updatedAt := truncateChars activity.updatedAt maxIdentifierChars
    receiverThreadIds :=
      (activity.receiverThreadIds.take nestedLimit).map (truncateChars · maxIdentifierChars)
    prompt := activity.prompt.map (truncateChars · textLimit)
    agents := (activity.agents.take nestedLimit).map (boundedAgent textLimit) }

def selectedActivities (limit : Nat) (activities : List FactorySubagentActivity) : List Nat :=
  (selectRecent limit (List.range activities.length).reverse
    (selectLatest limit activities.zipIdx.reverse [] [])).insertionSort (· ≤ ·)

def boundedSubagents (activities : List FactorySubagentActivity) (limit textLimit : Nat) :
    List FactorySubagentActivity :=
  (selectedActivities limit activities).filterMap (fun index =>
    activities[index]?.map (boundedActivity limit textLimit))

def projectedContextState (state : FactoryState) (itemLimit textLimit : Nat) :
    FactoryContextState :=
  let workUnits := boundedWorkUnits state.workUnits itemLimit textLimit
  let (review, omittedFindings) :=
    boundedReview state.review (min itemLimit maxFindings) textLimit
  let remediationStart := state.remediations.length - min itemLimit maxContextRemediations
  let subagents :=
    boundedSubagents state.subagents (min itemLimit maxContextSubagentActivities) textLimit
  { revision := state.revision
    workUnits := workUnits
    review := review
    remediations := (state.remediations.drop remediationStart).map (boundedRecord textLimit)
    subagents := subagents
    subagentHistory := boundedSubagentHistory state.subagentHistory
    omittedWorkUnits := state.workUnits.length - workUnits.length
    omittedFindings := omittedFindings
    omittedRemediations := remediationStart
    omittedSubagentActivities := state.subagents.length - subagents.length
    reviewOmitted := false }

def minimalContextState (state : FactoryState) : FactoryContextState where
  revision := state.revision
  workUnits := []
  review := none
  remediations := []
  subagents := []
  subagentHistory := boundedSubagentHistory state.subagentHistory
  omittedWorkUnits := state.workUnits.length
  omittedFindings := (state.review.map (·.findings.length)).getD 0
  omittedRemediations := state.remediations.length
  omittedSubagentActivities := state.subagents.length
  reviewOmitted := state.review.isSome

def contextBody (threadId : String) (durability : FactoryStateDurability)
    (state : FactoryContextState) : String :=
  JsonCompact.render
    (FactoryContextSnapshot.toValue
      ⟨"factory-native-extension", threadId, durability.text, state⟩)

def contextLoop (threadId : String) (durability : FactoryStateDurability) (state : FactoryState) :
    Nat → Nat → Nat → Option String
  | 0, _, _ => none
  | rounds + 1, itemLimit, textLimit =>
    let body := contextBody threadId durability (projectedContextState state itemLimit textLimit)
    if body.toList.length ≤ maxContextChars then some body
    else if minContextFieldChars < textLimit then
      contextLoop threadId durability state rounds itemLimit
        (max (textLimit / 2) minContextFieldChars)
    else if minContextItems < itemLimit then
      contextLoop threadId durability state rounds (max (itemLimit / 2) minContextItems) textLimit
    else some (contextBody threadId durability (minimalContextState state))

def boundedContextBody (rounds : Nat) (threadId : String) (durability : FactoryStateDurability)
    (state : FactoryState) : Option String :=
  contextLoop threadId durability state rounds maxWorkUnits maxContextFieldChars

end Extension
