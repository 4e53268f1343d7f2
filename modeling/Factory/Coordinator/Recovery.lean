import Factory.Coordinator.Jobs

namespace Coordinator

open Result Table

inductive RecoveryScope where
  | any
  | job (jobId : JobId)
  | operation (operationId : OperationId)
  deriving DecidableEq

def RecoveryScope.databaseIds : RecoveryScope → Option JobId × Option OperationId
  | .any => (none, none)
  | .job jobId => (some jobId, none)
  | .operation operationId => (none, some operationId)

def JobRow.profileMatches (profile : Option ExecutionProfile) (job : JobRow) : Bool :=
  job.kind ≠ "factory.task" ∨
    profile.any (fun p =>
      job.input.pathText ["executionProfile", "provider"] = some p.provider ∧
        job.input.pathText ["executionProfile", "model"] = some p.model)

def recoveryCause : OperationState → Outcome RecoveryCause
  | .ready => pure .newOperation
  | .retryWait => pure .retryScheduled
  | .running => pure .leaseExpired
  | other => .error (.unsupportedState "recoverable operation" other.asDatabaseValue)

def ResumeStrategy.ids : ResumeStrategy → Option AttemptId × Option CheckpointId
  | .fresh => (none, none)
  | .fromCheckpoint checkpoint => (some checkpoint.attemptId, some checkpoint.checkpointId)

def AttemptRow.lapsed (now : Timestamp) (attemptId : AttemptId) (a : AttemptRow) : Bool :=
  a.attemptId = attemptId ∧ a.status = .running ∧ a.leaseExpiresAt ≤ now

def AttemptRow.reclaim (now : Timestamp) (request : ClaimRequest)
    (resumes : Option AttemptId × Option CheckpointId) (a : AttemptRow) : AttemptRow :=
  { a with
    ownerInstanceId := request.ownerInstanceId
    leaseEpoch := a.leaseEpoch + 1
    leaseExpiresAt := now + request.leaseSeconds * microsPerSecond
    recoveryCause := .leaseExpired
    resumesAttemptId := resumes.1
    resumesCheckpointId := resumes.2 }

namespace Store

def previousAttempt (operationId : OperationId) (s : Store) : Option AttemptRow :=
  lastBy (·.attemptNumber) (s.attemptsOf operationId)

def attemptsMade (operationId : OperationId) (s : Store) : Nat :=
  ((s.previousAttempt operationId).map (·.attemptNumber)).getD 0

def recoverable (now : Timestamp) (job : JobRow) (operation : OperationRow) (s : Store) : Bool :=
  (job.status = .queued ∨ job.status = .running ∨ job.status = .cancelling) ∧
    (job.kind ≠ "factory.task" ∨ s.workspaceActive job.jobId) ∧
    (∀ p ∈ s.operations, p.jobId = operation.jobId → p.ordinal < operation.ordinal →
      p.status = .succeeded) ∧
    (((job.status = .queued ∨ job.status = .running) ∧
        s.attemptsMade operation.operationId < operation.maxAttempts ∧
        (operation.status = .ready ∨
          (operation.status = .retryWait ∧ operation.nextEligibleAt ≤ now))) ∨
      (operation.status = .running ∧
        (s.previousAttempt operation.operationId).any
          (fun a => a.status = .running ∧ a.leaseExpiresAt ≤ now)))

def recoveryRows (now : Timestamp) (jobId : Option JobId) (operationId : Option OperationId)
    (s : Store) : List (JobRow × OperationRow) :=
  (s.jobs.flatMap (fun j => (s.operationsOf j.jobId).map (fun o => (j, o)))).filter
    (fun row => (∀ id ∈ jobId, row.1.jobId = id) ∧
      (∀ id ∈ operationId, row.2.operationId = id) ∧ s.recoverable now row.1 row.2)

def recoveryKey (row : JobRow × OperationRow) : Timestamp ×ₗ Nat :=
  toLex (row.1.createdAt, row.2.ordinal)

def recoverySelectionRow (now : Timestamp) (jobId : Option JobId)
    (operationId : Option OperationId) (s : Store) : Option (JobRow × OperationRow) :=
  firstBy recoveryKey (s.recoveryRows now jobId operationId)

def recoveryCandidate (now : Timestamp) (jobId : Option JobId) (operationId : Option OperationId)
    (profile : Option ExecutionProfile) (locked : List OperationId) (s : Store) :
    Option OperationId :=
  (firstBy recoveryKey ((s.recoveryRows now jobId operationId).filter
    (fun row => row.1.profileMatches profile ∧ row.2.operationId ∉ locked))).map
    (·.2.operationId)

def checkpointRows (jobId : JobId) (ordinal : Nat) (s : Store) :
    List (CheckpointRecord × AttemptRow × OperationRow) :=
  (s.checkpoints.flatMap (fun c =>
    (s.attempts.filter (fun a => a.attemptId = c.attemptId)).flatMap (fun a =>
      (s.operations.filter (fun o => o.operationId = a.operationId)).map
        (fun o => (c, a, o))))).filter
    (fun row => row.2.2.jobId = jobId ∧ row.2.2.ordinal ≤ ordinal)

def checkpointKey (row : CheckpointRecord × AttemptRow × OperationRow) : Nat ×ₗ Nat ×ₗ Nat :=
  toLex (row.2.2.ordinal, toLex (row.2.1.attemptNumber, row.1.sequence))

def recoveryCheckpoint (operation : OperationRow) (s : Store) : Option CheckpointRecord :=
  (lastBy checkpointKey (s.checkpointRows operation.jobId operation.ordinal)).map (·.1)

def recoverySelection (job : JobRow) (operation : OperationRow) (s : Store) :
    Outcome RecoverySelection := do
  let cause ← recoveryCause operation.status
  let checkpoint := s.recoveryCheckpoint operation
  let made := s.attemptsMade operation.operationId
  pure
    { jobId := job.jobId
      operationId := operation.operationId
      operationKind := operation.kind
      cause := cause
      previousAttemptId := (s.previousAttempt operation.operationId).map (·.attemptId)
      nextAttemptNumber := if cause = .leaseExpired then made else made + 1
      maxAttempts := operation.maxAttempts
      resume := checkpoint.elim .fresh .fromCheckpoint
      checkpointCorrelation := (checkpoint.bind (·.correlationId)).bind
        (fun id => s.correlations.find? (fun c => c.correlationId = id)) }

def startJob (jobId : JobId) (s : Store) : Store :=
  { s with
    jobs := updateWhere (fun j => j.jobId = jobId ∧
        (j.status = .queued ∨ j.status = .running ∨ j.status = .cancelling))
      (fun j => { j with status := if j.status = .cancelling then j.status else .running })
      s.jobs }

def takeOver (now : Timestamp) (request : ClaimRequest) (selection : RecoverySelection)
    (s : Store) : Outcome (Option AttemptRow × Store) := do
  let previous ← okOr selection.previousAttemptId
    (.invalidInput "expired lease recovery has no attempt")
  match s.attempts.find? (AttemptRow.lapsed now previous) with
  | none => pure (none, s)
  | some attempt =>
    ensure (attempt.leaseEpoch + 1 ≤ i64Max) (.database .numericValueOutOfRange)
    pure (some (attempt.reclaim now request selection.resume.ids),
      { s with
        attempts := updateWhere (AttemptRow.lapsed now previous)
          (AttemptRow.reclaim now request selection.resume.ids) s.attempts })

def startAttempt (now : Timestamp) (request : ClaimRequest) (attemptId : AttemptId)
    (selection : RecoverySelection) (s : Store) : Outcome (Option AttemptRow × Store) := do
  ensure (selection.nextAttemptNumber ≤ i32Max) (.numericRange "attempt number")
  let row : AttemptRow :=
    ⟨attemptId, selection.operationId, selection.nextAttemptNumber, .running,
      request.ownerInstanceId, 1, now + request.leaseSeconds * microsPerSecond,
      selection.cause, selection.resume.ids.1, selection.resume.ids.2, none⟩
  let s ← s.insertAttempt row
  pure (some row, s)

def claimAttempt (now : Timestamp) (request : ClaimRequest) (attemptId : AttemptId)
    (selection : RecoverySelection) (s : Store) : Outcome (Option AttemptRow × Store) :=
  if selection.cause = .leaseExpired then s.takeOver now request selection
  else s.startAttempt now request attemptId selection

def claimSelection (now : Timestamp) (request : ClaimRequest) (attemptId : AttemptId)
    (selection : RecoverySelection) (s : Store) : Outcome (Option RecoveryLease × Store) := do
  if s.jobs.any (fun j => j.jobId = selection.jobId ∧
      (j.status = .queued ∨ j.status = .running ∨ j.status = .cancelling)) then
    let started := s.startJob selection.jobId
    let (attempt, claimed) ← started.claimAttempt now request attemptId selection
    match attempt with
    | none => pure (none, s)
    | some attempt =>
      pure (some ⟨selection, attempt, attempt.fence⟩,
        claimed.setOperationStatus selection.operationId .running)
  else pure (none, s)

def claimRecovery (now : Timestamp) (scope : RecoveryScope) (request : ClaimRequest)
    (locked : List OperationId) (attemptId : AttemptId) (s : Store) :
    Outcome (Option RecoveryLease × Store) := do
  ensure (request.leaseSeconds ≠ 0)
    (.invalidInput "claimed leases must be at least one second")
  match s.recoveryCandidate now scope.databaseIds.1 scope.databaseIds.2
      request.executionProfile locked with
  | none => pure (none, s)
  | some candidate =>
    match s.recoverySelectionRow now scope.databaseIds.1 (some candidate) with
    | none => pure (none, s)
    | some (job, operation) => do
        let selection ← s.recoverySelection job operation
        s.claimSelection now request attemptId selection

end Store

end Coordinator
