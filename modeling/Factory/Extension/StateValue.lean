import Factory.Extension.SubagentArchive

namespace Extension

open Json Serde

def FactorySubagentHistorySource.wireName : FactorySubagentHistorySource → String
  | .coordinatorJobEvents => "coordinator_job_events"

def FactoryProgressStatus.wireName : FactoryProgressStatus → String
  | .pending => "pending"
  | .inProgress => "in_progress"
  | .completed => "completed"
  | .blocked => "blocked"

def FactoryReviewVerdict.wireName : FactoryReviewVerdict → String
  | .approve => "approve"
  | .requestChanges => "request_changes"
  | .blocked => "blocked"

def FactoryFindingSeverity.wireName : FactoryFindingSeverity → String
  | .critical => "critical"
  | .major => "major"
  | .minor => "minor"

def FactoryRemediationDisposition.wireName : FactoryRemediationDisposition → String
  | .accepted => "accepted"
  | .rejected => "rejected"
  | .deferred => "deferred"
  | .resolved => "resolved"

def FactorySubagentHistory.toValue (history : FactorySubagentHistory) : Value :=
  .object
    [("source", .string history.source.wireName), ("event_kind", .string history.eventKind),
      ("latest_sequence", unsigned history.latestSequence)]

def FactoryWorkUnit.toValue (unit : FactoryWorkUnit) : Value :=
  .object
    [("id", .string unit.id), ("title", .string unit.title),
      ("description", .string unit.description),
      ("depends_on", .array (unit.dependsOn.map .string)),
      ("status", .string unit.status.wireName),
      ("progress_summary", optionalValue .string unit.progressSummary)]

def FactoryReviewFinding.toValue (finding : FactoryReviewFinding) : Value :=
  .object
    [("id", .string finding.id), ("severity", .string finding.severity.wireName),
      ("unit_id", .string finding.unitId), ("title", .string finding.title),
      ("evidence", .string finding.evidence), ("recommendation", .string finding.recommendation)]

def FactoryReviewReport.toValue (report : FactoryReviewReport) : Value :=
  .object
    (("generation", unsigned report.generation) ::
      (optionalEntry "recorded_turn_id" .string report.recordedTurnId ++
        (optionalEntry "recorded_thread_id" .string report.recordedThreadId ++
          (optionalEntry "recorded_parent_thread_id" .string report.recordedParentThreadId ++
            (optionalEntry "recorded_parent_turn_id" .string report.recordedParentTurnId ++
              (optionalEntry "recorded_subagent_kind" .string report.recordedSubagentKind ++
                [("verdict", .string report.verdict.wireName), ("summary", .string report.summary),
                  ("findings", .array (report.findings.map FactoryReviewFinding.toValue))]))))))

def FactoryRemediationRecord.toValue (record : FactoryRemediationRecord) : Value :=
  .object
    [("finding_id", .string record.findingId),
      ("disposition", .string record.disposition.wireName),
      ("rationale", .string record.rationale), ("unit_id", .string record.unitId)]

def FactoryReviewCycle.toValue (cycle : FactoryReviewCycle) : Value :=
  .object
    [("review", cycle.review.toValue),
      ("remediations", .array (cycle.remediations.map FactoryRemediationRecord.toValue))]

def FactoryReviewRecoveryBaseline.toValue (baseline : FactoryReviewRecoveryBaseline) : Value :=
  .object
    [("revision", unsigned baseline.revision),
      ("review", optionalValue FactoryReviewReport.toValue baseline.review),
      ("remediations", .array (baseline.remediations.map FactoryRemediationRecord.toValue)),
      ("review_history", .array (baseline.reviewHistory.map FactoryReviewCycle.toValue))]

end Extension
