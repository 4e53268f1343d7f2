import Factory.Library.Text
import Factory.Library.Json
import Factory.Library.Time

namespace Coordinator

abbrev JobId := String
abbrev OperationId := String
abbrev AttemptId := String
abbrev ExecutionEnvironmentId := String
abbrev RequestId := String
abbrev ThreadId := String
abbrev TurnId := String
abbrev ItemId := String
abbrev CheckpointId := String
abbrev CorrelationRecordId := String
abbrev CoordinatorInstanceId := String

abbrev Timestamp := Int

def microsPerSecond : Int := 1000000

def i32Max : Nat := 2147483647
def i64Max : Nat := 9223372036854775807

inductive WorkspaceState where
  | active
  | removed
  deriving DecidableEq, Repr

inductive JobState where
  | queued
  | running
  | cancelling
  | succeeded
  | failed
  | cancelled
  deriving DecidableEq, Repr

def JobState.asDatabaseValue : JobState → String
  | .queued => "queued"
  | .running => "running"
  | .cancelling => "cancelling"
  | .succeeded => "succeeded"
  | .failed => "failed"
  | .cancelled => "cancelled"

inductive OperationState where
  | ready
  | running
  | retryWait
  | succeeded
  | failed
  | cancelled
  deriving DecidableEq, Repr

def OperationState.asDatabaseValue : OperationState → String
  | .ready => "ready"
  | .running => "running"
  | .retryWait => "retry_wait"
  | .succeeded => "succeeded"
  | .failed => "failed"
  | .cancelled => "cancelled"

inductive AttemptState where
  | running
  | succeeded
  | failed
  | abandoned
  deriving DecidableEq, Repr

inductive ExecutionEnvironmentDesiredState where
  | active
  | released
  deriving DecidableEq, Repr

def ExecutionEnvironmentDesiredState.debug : ExecutionEnvironmentDesiredState → String
  | .active => "Active"
  | .released => "Released"

inductive ExecutionEnvironmentStatus where
  | provisioning
  | ready
  | releasing
  | released
  | failed
  deriving DecidableEq, Repr

inductive RecoveryCause where
  | newOperation
  | retryScheduled
  | leaseExpired
  deriving DecidableEq, Repr

structure OperationDefinition where
  kind : String
  input : Json.Value
  maxAttempts : Nat
  deriving DecidableEq

structure JobDefinition where
  kind : String
  input : Json.Value
  operations : List OperationDefinition
  deriving DecidableEq

structure ExecutionProfile where
  provider : String
  model : String
  deriving DecidableEq

structure JobRow where
  jobId : JobId
  kind : String
  input : Json.Value
  status : JobState
  createdAt : Timestamp
  deriving DecidableEq

structure OperationRow where
  operationId : OperationId
  jobId : JobId
  ordinal : Nat
  kind : String
  input : Json.Value
  status : OperationState
  maxAttempts : Nat
  nextEligibleAt : Timestamp
  deriving DecidableEq

structure AttemptRow where
  attemptId : AttemptId
  operationId : OperationId
  attemptNumber : Nat
  status : AttemptState
  ownerInstanceId : CoordinatorInstanceId
  leaseEpoch : Nat
  leaseExpiresAt : Timestamp
  recoveryCause : RecoveryCause
  resumesAttemptId : Option AttemptId
  resumesCheckpointId : Option CheckpointId
  failure : Option Json.Value
  deriving DecidableEq

structure AttemptFence where
  attemptId : AttemptId
  ownerInstanceId : CoordinatorInstanceId
  leaseEpoch : Nat
  deriving DecidableEq

def AttemptRow.fence (a : AttemptRow) : AttemptFence :=
  ⟨a.attemptId, a.ownerInstanceId, a.leaseEpoch⟩

structure Correlation where
  jobId : JobId
  operationId : OperationId
  attemptId : AttemptId
  requestId : RequestId
  threadId : Option ThreadId
  turnId : Option TurnId
  itemId : Option ItemId
  deriving DecidableEq

structure DurableCorrelationRecord where
  correlationId : CorrelationRecordId
  correlation : Correlation
  deriving DecidableEq

structure NewCheckpoint where
  attemptId : AttemptId
  kind : String
  payload : Json.Value
  workspaceRoot : Option String
  workspaceRevision : Option String
  correlationId : Option CorrelationRecordId
  deriving DecidableEq

structure CheckpointRecord where
  checkpointId : CheckpointId
  attemptId : AttemptId
  sequence : Nat
  kind : String
  payload : Json.Value
  workspaceRoot : Option String
  workspaceRevision : Option String
  correlationId : Option CorrelationRecordId
  deriving DecidableEq

structure FactoryThreadStateRecord where
  threadId : ThreadId
  state : Json.Value
  revision : Nat
  deriving DecidableEq

structure NewJobEvent where
  jobId : JobId
  kind : String
  payload : Json.Value
  deriving DecidableEq

structure NewAttemptEvent where
  kind : String
  payload : Json.Value
  deduplicationKey : Option String
  deriving DecidableEq

structure JobEventRow where
  sequence : Nat
  jobId : JobId
  operationId : Option OperationId
  attemptId : Option AttemptId
  kind : String
  payload : Json.Value
  deduplicationKey : Option String
  deriving DecidableEq

structure WorkspaceRow where
  jobId : JobId
  repositoryId : String
  repository : String
  baseRef : String
  baseRevision : String
  branchName : String
  root : String
  revision : String
  status : WorkspaceState
  deriving DecidableEq

structure WorkspaceBinding where
  jobId : JobId
  repositoryId : String
  repository : String
  baseRef : String
  baseRevision : String
  branchName : String
  root : String
  revision : String
  deriving DecidableEq

structure EnvironmentRow where
  jobId : JobId
  environmentId : ExecutionEnvironmentId
  backend : String
  generation : Nat
  desiredState : ExecutionEnvironmentDesiredState
  status : ExecutionEnvironmentStatus
  backendRef : Option String
  url : Option String
  error : Option String
  deriving DecidableEq

inductive ResumeStrategy where
  | fresh
  | fromCheckpoint (checkpoint : CheckpointRecord)
  deriving DecidableEq

structure RecoverySelection where
  jobId : JobId
  operationId : OperationId
  operationKind : String
  cause : RecoveryCause
  previousAttemptId : Option AttemptId
  nextAttemptNumber : Nat
  maxAttempts : Nat
  resume : ResumeStrategy
  checkpointCorrelation : Option DurableCorrelationRecord
  deriving DecidableEq

structure ClaimRequest where
  ownerInstanceId : CoordinatorInstanceId
  leaseSeconds : Nat
  executionProfile : Option ExecutionProfile
  deriving DecidableEq

structure RecoveryLease where
  selection : RecoverySelection
  attempt : AttemptRow
  fence : AttemptFence
  deriving DecidableEq

inductive AttemptFailure where
  | retryAt (retryAt : Timestamp) (detail : Json.Value)
  | terminal (detail : Json.Value)
  deriving DecidableEq

def AttemptFailure.toValue : AttemptFailure → Json.Value
  | .retryAt time detail =>
    .object [("disposition", .string "retryAt"), ("retryAt", .string (Time.rfc3339 time)),
      ("detail", detail)]
  | .terminal detail => .object [("disposition", .string "terminal"), ("detail", detail)]

inductive AttemptSettlement where
  | succeeded
  | failed (failure : AttemptFailure)
  deriving DecidableEq

inductive DatabaseError where
  | uniqueViolation (constraint : String)
  | foreignKeyViolation (constraint : String)
  | checkViolation (constraint : String)
  | numericValueOutOfRange
  | rowNotFound
  deriving DecidableEq

inductive CoordinatorError where
  | database (error : DatabaseError)
  | invalidJobDefinition (message : String)
  | invalidInput (message : String)
  | jobNotFound (jobId : JobId)
  | jobNotCancellable (jobId : JobId) (state : String)
  | jobNotContinuable (jobId : JobId) (state : String)
  | jobCancellationRequested (jobId : JobId)
  | workspaceNotFound (jobId : JobId)
  | executionEnvironmentNotFound (jobId : JobId)
  | executionEnvironmentGenerationStale (jobId : JobId) (generation : Nat)
  | attemptLeaseUnavailable (attemptId : AttemptId)
  | correlationMismatch
  | checkpointCorrelationMismatch
  | threadStateOwnershipMismatch (attemptId : AttemptId) (threadId : ThreadId)
  | unsupportedState (kind : String) (value : String)
  | numericRange (field : String)
  deriving DecidableEq

end Coordinator
