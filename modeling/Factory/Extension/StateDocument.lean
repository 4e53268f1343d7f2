import Factory.Extension.StateValue

namespace Extension

open Json Serde Result

section Decoders

def FactorySubagentHistorySource.fromValue : Decoder FactorySubagentHistorySource :=
  variant ([.coordinatorJobEvents].map (fun source => (wireName source, source)))

def FactorySubagentTool.fromValue : Decoder FactorySubagentTool :=
  variant ([.spawnAgent, .sendInput, .resumeAgent, .wait, .closeAgent, .interact,
    .interruptAgent].map (fun tool => (wireName tool, tool)))

def FactorySubagentToolCallStatus.fromValue : Decoder FactorySubagentToolCallStatus :=
  variant ([.inProgress, .completed, .failed].map (fun status => (wireName status, status)))

def FactorySubagentStatus.fromValue : Decoder FactorySubagentStatus :=
  variant ([.pendingInit, .running, .interrupted, .completed, .errored, .shutdown,
    .notFound].map (fun status => (wireName status, status)))

def FactoryProgressStatus.fromValue : Decoder FactoryProgressStatus :=
  variant ([.pending, .inProgress, .completed, .blocked].map
    (fun status => (wireName status, status)))

def FactoryReviewVerdict.fromValue : Decoder FactoryReviewVerdict :=
  variant ([.approve, .requestChanges, .blocked].map (fun verdict => (wireName verdict, verdict)))

def FactoryFindingSeverity.fromValue : Decoder FactoryFindingSeverity :=
  variant ([.critical, .major, .minor].map (fun severity => (wireName severity, severity)))

def FactoryRemediationDisposition.fromValue : Decoder FactoryRemediationDisposition :=
  variant ([.accepted, .rejected, .deferred, .resolved].map
    (fun disposition => (wireName disposition, disposition)))

def FactorySubagentState.fromValue : Decoder FactorySubagentState := fun value => do
  let value ← record "FactorySubagentState" ["thread_id", "status", "terminal", "message"] 4 value
  let threadId ← field "thread_id" string value
  let status ← field "status" FactorySubagentStatus.fromValue value
  let terminal ← field "terminal" boolean value
  let message ← nullable "message" string value
  pure ⟨threadId, status, terminal, message⟩

def FactorySubagentActivity.fromValue : Decoder FactorySubagentActivity := fun value => do
  let value ← record "FactorySubagentActivity"
    ["call_id", "turn_id", "sender_thread_id", "receiver_thread_ids", "tool", "prompt", "status",
      "agents", "created_at", "updated_at"] 10 value
  let callId ← field "call_id" string value
  let turnId ← field "turn_id" string value
  let senderThreadId ← field "sender_thread_id" string value
  let receiverThreadIds ← field "receiver_thread_ids" (list string) value
  let tool ← field "tool" FactorySubagentTool.fromValue value
  let prompt ← nullable "prompt" string value
  let status ← field "status" FactorySubagentToolCallStatus.fromValue value
  let agents ← field "agents" (list FactorySubagentState.fromValue) value
  let createdAt ← field "created_at" string value
  let updatedAt ← field "updated_at" string value
  pure ⟨callId, turnId, senderThreadId, receiverThreadIds, tool, prompt, status, agents, createdAt,
    updatedAt⟩

def FactorySubagentHistory.fromValue : Decoder FactorySubagentHistory := fun value => do
  let value ← record "FactorySubagentHistory" ["source", "event_kind", "latest_sequence"] 3 value
  let source ← field "source" FactorySubagentHistorySource.fromValue value
  let eventKind ← field "event_kind" string value
  let latestSequence ← field "latest_sequence" u64 value
  pure ⟨source, eventKind, latestSequence⟩

def FactoryReviewFinding.fromValue : Decoder FactoryReviewFinding := fun value => do
  let value ← record "FactoryReviewFinding"
    ["id", "severity", "unit_id", "title", "evidence", "recommendation"] 6 value
  let id ← field "id" string value
  let severity ← field "severity" FactoryFindingSeverity.fromValue value
  let unitId ← field "unit_id" string value
  let title ← field "title" string value
  let evidence ← field "evidence" string value
  let recommendation ← field "recommendation" string value
  pure ⟨id, severity, unitId, title, evidence, recommendation⟩

def FactoryReviewReport.fromValue : Decoder FactoryReviewReport := fun value => do
  let value ← record "FactoryReviewReport"
    ["generation", "recorded_turn_id", "recorded_thread_id", "recorded_parent_thread_id",
      "recorded_parent_turn_id", "recorded_subagent_kind", "verdict", "summary", "findings"] 9 value
  let generation ← defaulted "generation" 0 u64 value
  let recordedTurnId ← nullable "recorded_turn_id" string value
  let recordedThreadId ← nullable "recorded_thread_id" string value
  let recordedParentThreadId ← nullable "recorded_parent_thread_id" string value
  let recordedParentTurnId ← nullable "recorded_parent_turn_id" string value
  let recordedSubagentKind ← nullable "recorded_subagent_kind" string value
  let verdict ← field "verdict" FactoryReviewVerdict.fromValue value
  let summary ← field "summary" string value
  let findings ← field "findings" (list FactoryReviewFinding.fromValue) value
  pure ⟨generation, recordedTurnId, recordedThreadId, recordedParentThreadId,
    recordedParentTurnId, recordedSubagentKind, verdict, summary, findings⟩

def FactoryRemediationRecord.fromValue : Decoder FactoryRemediationRecord := fun value => do
  let value ← record "FactoryRemediationRecord"
    ["finding_id", "disposition", "rationale", "unit_id"] 4 value
  let findingId ← field "finding_id" string value
  let disposition ← field "disposition" FactoryRemediationDisposition.fromValue value
  let rationale ← field "rationale" string value
  let unitId ← field "unit_id" string value
  pure ⟨findingId, disposition, rationale, unitId⟩

def FactoryReviewCycle.fromValue : Decoder FactoryReviewCycle := fun value => do
  let value ← record "FactoryReviewCycle" ["review", "remediations"] 2 value
  let review ← field "review" FactoryReviewReport.fromValue value
  let remediations ← field "remediations" (list FactoryRemediationRecord.fromValue) value
  pure ⟨review, remediations⟩

def FactoryReviewRecoveryBaseline.fromValue : Decoder FactoryReviewRecoveryBaseline :=
  fun value => do
    let value ← record "FactoryReviewRecoveryBaseline"
      ["revision", "review", "remediations", "review_history"] 4 value
    let revision ← field "revision" u64 value
    let review ← nullable "review" FactoryReviewReport.fromValue value
    let remediations ← field "remediations" (list FactoryRemediationRecord.fromValue) value
    let reviewHistory ← field "review_history" (list FactoryReviewCycle.fromValue) value
    pure ⟨revision, review, remediations, reviewHistory⟩

end Decoders

structure WorkUnitDefinition where
  id : String
  title : String
  description : String
  dependsOn : List String
  deriving DecidableEq

structure WorkUnitProgress where
  id : String
  status : FactoryProgressStatus
  progressSummary : Option String
  deriving DecidableEq

structure DecompositionDocument where
  revision : Nat
  workUnits : List WorkUnitDefinition
  deriving DecidableEq

structure ProgressDocument where
  workUnits : List WorkUnitProgress
  deriving DecidableEq

structure RemediationDocument where
  records : List FactoryRemediationRecord
  deriving DecidableEq

structure ReviewHistoryDocument where
  cycles : List FactoryReviewCycle
  deriving DecidableEq

structure SubagentsDocument where
  activities : List FactorySubagentActivity
  history : Option FactorySubagentHistory
  deriving DecidableEq

namespace WorkUnitDefinition

def toValue (definition : WorkUnitDefinition) : Value :=
  .object
    [("id", .string definition.id), ("title", .string definition.title),
      ("description", .string definition.description),
      ("depends_on", .array (definition.dependsOn.map .string))]

def fromValue : Decoder WorkUnitDefinition := fun value => do
  let value ← record "WorkUnitDefinition" ["id", "title", "description", "depends_on"] 4 value
  let id ← field "id" string value
  let title ← field "title" string value
  let description ← field "description" string value
  let dependsOn ← field "depends_on" (list string) value
  pure ⟨id, title, description, dependsOn⟩

end WorkUnitDefinition

namespace WorkUnitProgress

def toValue (progress : WorkUnitProgress) : Value :=
  .object
    [("id", .string progress.id), ("status", .string progress.status.wireName),
      ("progress_summary", optionalValue .string progress.progressSummary)]

def fromValue : Decoder WorkUnitProgress := fun value => do
  let value ← record "WorkUnitProgress" ["id", "status", "progress_summary"] 3 value
  let id ← field "id" string value
  let status ← field "status" FactoryProgressStatus.fromValue value
  let progressSummary ← nullable "progress_summary" string value
  pure ⟨id, status, progressSummary⟩

end WorkUnitProgress

namespace DecompositionDocument

def toValue (document : DecompositionDocument) : Value :=
  .object
    [("revision", unsigned document.revision),
      ("work_units", .array (document.workUnits.map WorkUnitDefinition.toValue))]

def fromValue : Decoder DecompositionDocument := fun value => do
  let value ← record "DecompositionDocument" ["revision", "work_units"] 2 value
  let revision ← field "revision" u64 value
  let workUnits ← field "work_units" (list WorkUnitDefinition.fromValue) value
  pure ⟨revision, workUnits⟩

end DecompositionDocument

namespace ProgressDocument

def toValue (document : ProgressDocument) : Value :=
  .object [("work_units", .array (document.workUnits.map WorkUnitProgress.toValue))]

def fromValue : Decoder ProgressDocument := fun value => do
  let value ← record "ProgressDocument" ["work_units"] 1 value
  let workUnits ← field "work_units" (list WorkUnitProgress.fromValue) value
  pure ⟨workUnits⟩

end ProgressDocument

namespace RemediationDocument

def toValue (document : RemediationDocument) : Value :=
  .object [("records", .array (document.records.map FactoryRemediationRecord.toValue))]

def fromValue : Decoder RemediationDocument := fun value => do
  let value ← record "RemediationDocument" ["records"] 1 value
  let records ← field "records" (list FactoryRemediationRecord.fromValue) value
  pure ⟨records⟩

end RemediationDocument

namespace ReviewHistoryDocument

def toValue (document : ReviewHistoryDocument) : Value :=
  .object [("cycles", .array (document.cycles.map FactoryReviewCycle.toValue))]

def fromValue : Decoder ReviewHistoryDocument := fun value => do
  let value ← record "ReviewHistoryDocument" ["cycles"] 1 value
  let cycles ← field "cycles" (list FactoryReviewCycle.fromValue) value
  pure ⟨cycles⟩

end ReviewHistoryDocument

namespace SubagentsDocument

def toValue (document : SubagentsDocument) : Value :=
  .object
    (("activities", .array (document.activities.map FactorySubagentActivity.toValue)) ::
      optionalEntry "history" FactorySubagentHistory.toValue document.history)

def fromValue : Decoder SubagentsDocument := fun value => do
  let value ← record "SubagentsDocument" ["activities", "history"] 1 value
  let activities ← field "activities" (list FactorySubagentActivity.fromValue) value
  let history ← nullable "history" FactorySubagentHistory.fromValue value
  pure ⟨activities, history⟩

end SubagentsDocument

structure FactoryStateDocument where
  decomposition : Option Value
  progress : Option Value
  review : Option Value
  remediation : Option Value
  reviewHistory : Option Value
  subagents : Option Value
  reviewRecovery : Option Value
  deriving DecidableEq

def fromContributor {α : Type} (contributor : String) (decode : Decoder α) (value : Value) :
    Except String α :=
  (decode value).mapError (fun error =>
    "decode Factory " ++ contributor ++ " state: " ++ error)

def contributed {α : Type} (contributor : String) (decode : Decoder α) :
    Option Value → Except String (Option α)
  | none => .ok none
  | some value => some <$> fromContributor contributor decode value

def progressById : List WorkUnitProgress → List (String × WorkUnitProgress) →
    Except String (List (String × WorkUnitProgress))
  | [], known => .ok known
  | entry :: rest, known => do
      ensure (entry.id ∉ known.map Prod.fst) "Factory progress contains a duplicate work-unit ID"
      progressById rest ((entry.id, entry) :: known)

def joinUnits : List WorkUnitDefinition → List (String × WorkUnitProgress) →
    Except String (List FactoryWorkUnit × List (String × WorkUnitProgress))
  | [], known => .ok ([], known)
  | definition :: rest, known => do
      let progress ← okOr (known.lookup definition.id)
        ("Factory progress is missing work unit " ++ definition.id)
      let (units, left) ← joinUnits rest (known.filter (fun entry => entry.1 ≠ definition.id))
      pure (⟨definition.id, definition.title, definition.description, definition.dependsOn,
        progress.status, progress.progressSummary⟩ :: units, left)

namespace FactoryStateDocument

def fromState (state : FactoryState) : FactoryStateDocument where
  decomposition := some (DecompositionDocument.toValue
    ⟨state.revision, state.workUnits.map (fun unit =>
      ⟨unit.id, unit.title, unit.description, unit.dependsOn⟩)⟩)
  progress := some (ProgressDocument.toValue
    ⟨state.workUnits.map (fun unit => ⟨unit.id, unit.status, unit.progressSummary⟩)⟩)
  review := state.review.map FactoryReviewReport.toValue
  remediation := some (RemediationDocument.toValue ⟨state.remediations⟩)
  reviewHistory := some (ReviewHistoryDocument.toValue ⟨state.reviewHistory⟩)
  subagents := some (SubagentsDocument.toValue ⟨state.subagents, state.subagentHistory⟩)
  reviewRecovery := state.reviewRecovery.map FactoryReviewRecoveryBaseline.toValue

def joined (decomposition : DecompositionDocument) (progress : ProgressDocument) :
    Except String (List FactoryWorkUnit) := do
  let known ← progressById progress.workUnits []
  let (workUnits, left) ← joinUnits decomposition.workUnits known
  ensure (left = []) "Factory progress references an unknown work-unit ID"
  pure workUnits

def intoState (document : FactoryStateDocument) : Except String FactoryState :=
  match document.decomposition with
  | none =>
    if document.progress = none ∧ document.review = none ∧ document.remediation = none ∧
        document.reviewHistory = none ∧ document.subagents = none ∧
        document.reviewRecovery = none then
      .ok .default
    else .error "Factory state has contributor data without a decomposition"
  | some decomposition => do
      let decomposition ←
        fromContributor "decomposition" DecompositionDocument.fromValue decomposition
      let progress ← okOr document.progress "Factory state is missing progress"
      let progress ← fromContributor "progress" ProgressDocument.fromValue progress
      let workUnits ← joined decomposition progress
      let review ← contributed "review" FactoryReviewReport.fromValue document.review
      let remediation ← contributed "remediation" RemediationDocument.fromValue document.remediation
      let reviewHistory ←
        contributed "review history" ReviewHistoryDocument.fromValue document.reviewHistory
      let subagents ← contributed "subagents" SubagentsDocument.fromValue document.subagents
      let reviewRecovery ←
        contributed "review recovery" FactoryReviewRecoveryBaseline.fromValue
          document.reviewRecovery
      pure
        { revision := decomposition.revision
          workUnits := workUnits
          review := review
          remediations := (remediation.map (·.records)).getD []
          reviewHistory := (reviewHistory.map (·.cycles)).getD []
          subagents := (subagents.map (·.activities)).getD []
          subagentHistory := subagents.bind (·.history)
          reviewRecovery := reviewRecovery }

end FactoryStateDocument

end Extension
