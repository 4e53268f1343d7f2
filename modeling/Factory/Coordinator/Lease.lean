import Factory.Coordinator.Store

namespace Coordinator

open Result Table

structure AttemptContextRow where
  operationId : OperationId
  jobId : JobId
  jobStatus : JobState
  attemptNumber : Nat
  maxAttempts : Nat
  deriving DecidableEq

def AttemptRow.holds (now : Timestamp) (fence : AttemptFence) (a : AttemptRow) : Bool :=
  a.attemptId = fence.attemptId ∧ a.ownerInstanceId = fence.ownerInstanceId ∧
    a.leaseEpoch = fence.leaseEpoch ∧ a.status = .running ∧ now < a.leaseExpiresAt

namespace Store

def attemptContext (now : Timestamp) (fence : AttemptFence) (s : Store) :
    Option AttemptContextRow := do
  let attempt ← s.attempts.find? (AttemptRow.holds now fence)
  let operation ← s.findOperation attempt.operationId
  let job ← s.findJob operation.jobId
  pure ⟨attempt.operationId, operation.jobId, job.status, attempt.attemptNumber,
    operation.maxAttempts⟩

def lockAttemptContext (now : Timestamp) (fence : AttemptFence) (s : Store) :
    Outcome AttemptContextRow := do
  let _ ← databaseLeaseEpoch fence.leaseEpoch
  okOr (s.attemptContext now fence) (.attemptLeaseUnavailable fence.attemptId)

def renewAttempt (now : Timestamp) (fence : AttemptFence) (leaseSeconds : Nat) (s : Store) :
    Outcome Store := do
  ensure (leaseSeconds ≠ 0) (.invalidInput "renewed leases must be at least one second")
  let _ ← databaseLeaseEpoch fence.leaseEpoch
  let _ ← okOr (s.attempts.find? (AttemptRow.holds now fence))
    (.attemptLeaseUnavailable fence.attemptId)
  pure { s with
    attempts := updateWhere (AttemptRow.holds now fence)
      ({ · with leaseExpiresAt := now + leaseSeconds * microsPerSecond }) s.attempts }

def relinquishAttempt (now : Timestamp) (fence : AttemptFence) (s : Store) : Outcome Store := do
  let _ ← databaseLeaseEpoch fence.leaseEpoch
  let _ ← okOr (s.attempts.find? (AttemptRow.holds now fence))
    (.attemptLeaseUnavailable fence.attemptId)
  pure { s with
    attempts := updateWhere (AttemptRow.holds now fence)
      ({ · with leaseExpiresAt := now }) s.attempts }

def correlationMatches (correlation : Correlation) (s : Store) : Bool :=
  s.attempts.any (fun a => a.attemptId = correlation.attemptId ∧
    a.operationId = correlation.operationId ∧
    s.operations.any (fun o => o.operationId = a.operationId ∧ o.jobId = correlation.jobId))

def appendCorrelation (now : Timestamp) (fence : AttemptFence) (correlation : Correlation)
    (correlationId : CorrelationRecordId) (s : Store) :
    Outcome (DurableCorrelationRecord × Store) := do
  ensure (correlation.attemptId = fence.attemptId)
    (.invalidInput "correlation attempt does not match its lease fence")
  let _ ← s.lockAttemptContext now fence
  ensure (s.correlationMatches correlation) .correlationMismatch
  ensure (∀ c ∈ s.correlations, c.correlationId ≠ correlationId)
    (.database (.uniqueViolation "factory_runtime_correlations_pkey"))
  let row : DurableCorrelationRecord := ⟨correlationId, correlation⟩
  pure (row, { s with correlations := s.correlations ++ [row] })

def validateCheckpoint (fence : AttemptFence) (checkpoint : NewCheckpoint) : Outcome Unit := do
  ensure (checkpoint.attemptId = fence.attemptId)
    (.invalidInput "checkpoint attempt does not match its lease fence")
  ensure (¬ Text.isBlank checkpoint.kind) (.invalidInput "checkpoint kind must not be empty")

def nextCheckpointSequence (attemptId : AttemptId) (s : Store) : Nat :=
  ((s.checkpoints.filter (fun c => c.attemptId = attemptId)).map (·.sequence)).foldl max 0 + 1

def insertCheckpoint (checkpoint : NewCheckpoint) (checkpointId : CheckpointId) (s : Store) :
    Outcome (CheckpointRecord × Store) := do
  ensure (∀ correlationId ∈ checkpoint.correlationId,
      ∃ c ∈ s.correlations, c.correlationId = correlationId ∧
        c.correlation.attemptId = checkpoint.attemptId)
    .checkpointCorrelationMismatch
  ensure (∀ c ∈ s.checkpoints, c.checkpointId ≠ checkpointId)
    (.database (.uniqueViolation "factory_checkpoints_pkey"))
  let row : CheckpointRecord :=
    ⟨checkpointId, checkpoint.attemptId, s.nextCheckpointSequence checkpoint.attemptId,
      checkpoint.kind, checkpoint.payload, checkpoint.workspaceRoot,
      checkpoint.workspaceRevision, checkpoint.correlationId⟩
  pure (row, { s with checkpoints := s.checkpoints ++ [row] })

def saveCheckpoint (now : Timestamp) (fence : AttemptFence) (checkpoint : NewCheckpoint)
    (checkpointId : CheckpointId) (s : Store) : Outcome (CheckpointRecord × Store) := do
  validateCheckpoint fence checkpoint
  let _ ← s.lockAttemptContext now fence
  s.insertCheckpoint checkpoint checkpointId

def upsertThreadState (threadId : ThreadId) (state : Json.Value) (s : Store) : Store :=
  if s.threadStates.any (fun t => t.threadId = threadId) then
    { s with
      threadStates := updateWhere (fun t => t.threadId = threadId)
        (fun t => { t with state := state, revision := t.revision + 1 }) s.threadStates }
  else { s with threadStates := s.threadStates ++ [⟨threadId, state, 1⟩] }

def putThreadState (now : Timestamp) (fence : AttemptFence) (threadId : ThreadId)
    (state : Json.Value) (s : Store) : Outcome Store := do
  let _ ← s.lockAttemptContext now fence
  ensure (∃ c ∈ s.correlations, c.correlation.attemptId = fence.attemptId ∧
      c.correlation.threadId = some threadId)
    (.threadStateOwnershipMismatch fence.attemptId threadId)
  pure (s.upsertThreadState threadId state)

end Store

end Coordinator
