import Factory.Runtime.CheckpointCodec
import Factory.Coordinator.Commands

namespace Runtime

open Coordinator Result

inductive ExecutionFailure where
  | coordinator (error : CoordinatorError)
  | terminal (message : String)
  deriving DecidableEq

structure OperationExecutionContext where
  lease : RecoveryLease
  job : JobRow
  operation : OperationRow
  workspace : Option WorkspaceRow
  deriving DecidableEq

def loadContext (s : Store) (lease : RecoveryLease) : Option OperationExecutionContext := do
  let job ← s.findJob lease.selection.jobId
  let operation ← (s.operationsOf job.jobId).find?
    (fun operation => operation.operationId = lease.selection.operationId)
  pure ⟨lease, job, operation, s.workspaces.find? (fun workspace => workspace.jobId = job.jobId)⟩

def validateOrder (entry : OperationRow × Nat) : Except ExecutionFailure Unit :=
  ensure (entry.1.ordinal = entry.2 ∧
      entry.1.kind = (OperationKind.atOrdinal entry.2).asWireName)
    (.terminal ("factory.task operations must follow plan, execute, review, remediate, then " ++
      "iterate, review, remediate rounds"))

def validateJobShape (s : Store) (context : OperationExecutionContext)
    (operation : OperationKind) : Except ExecutionFailure Unit := do
  ensure (context.job.kind = "factory.task")
    (.terminal ("unsupported durable job kind " ++ Text.debug context.job.kind))
  let operations := s.operationsOf context.job.jobId
  let base := OperationKind.all.length
  ensure (base ≤ operations.length ∧ (operations.length - base) % 3 = 0)
    (.terminal ("factory.task must contain plan, execute, review, remediate, plus complete " ++
      "iterate, review, remediate continuation rounds"))
  forM operations.zipIdx validateOrder
  ensure (OperationKind.atOrdinal context.operation.ordinal = operation)
    (.terminal "claimed operation kind does not match its Factory stage ordinal")

inductive ResumePoint where
  | fresh
  | previous (checkpoint : StageCheckpoint)
  | current (checkpoint : StageCheckpoint) (correlationId : Option CorrelationRecordId)
  deriving DecidableEq

namespace ResumePoint

def decodeRecord (record : CheckpointRecord) (ordinal : Nat) (operation : OperationKind)
    (workspaceRoot workspaceRevision : String) : Except ExecutionFailure ResumePoint := do
  ensure (record.workspaceRoot = some workspaceRoot ∧
      record.workspaceRevision = some workspaceRevision)
    (.terminal "resume checkpoint does not belong to the current managed worktree")
  let checkpoint ← match StageCheckpoint.decode record with
    | .ok checkpoint => .ok checkpoint
    | .error error => .error (ExecutionFailure.terminal error.message)
  if checkpoint.operation = operation then
    pure (.current checkpoint record.correlationId)
  else do
    ensure (ordinal ≠ 0) (.terminal "plan stage resumed from another operation")
    ensure (checkpoint.operation = OperationKind.atOrdinal (ordinal - 1) ∧
        checkpoint.phase = .completed)
      (.terminal ("resume checkpoint is not the completed immediately preceding Factory stage"))
    pure (.previous checkpoint)

def decode (context : OperationExecutionContext) (operation : OperationKind)
    (workspaceRoot workspaceRevision : String) : Except ExecutionFailure ResumePoint :=
  match context.lease.selection.resume with
  | .fresh => do
      ensure (operation = .plan ∧ context.operation.ordinal = 0)
        (.terminal "non-plan stage has no completed predecessor checkpoint")
      pure .fresh
  | .fromCheckpoint record =>
    decodeRecord record context.operation.ordinal operation workspaceRoot workspaceRevision

def correlationCheckpoint : ResumePoint → Option StageCheckpoint
  | .previous checkpoint | .current checkpoint _ => some checkpoint
  | .fresh => none

end ResumePoint

def durableCorrelation (context : OperationExecutionContext) (requestId : RequestId)
    (threadId : Option ThreadId) (turnId : Option TurnId) : Correlation :=
  ⟨context.job.jobId, context.operation.operationId, context.lease.fence.attemptId, requestId,
    threadId, turnId, none⟩

def checkpointTurnCorrelation (context : OperationExecutionContext)
    (checkpoint : StageCheckpoint) : Except ExecutionFailure Correlation := do
  let source ← okOr context.lease.selection.checkpointCorrelation
    (.terminal "checkpoint has no exact turn correlation")
  ensure (source.correlation.threadId = some checkpoint.activeThreadId ∧
      source.correlation.turnId = some checkpoint.turnId)
    (.terminal "checkpoint correlation does not match its Codex turn")
  pure (durableCorrelation context source.correlation.requestId (some checkpoint.activeThreadId)
    (some checkpoint.turnId))

end Runtime
