import Factory.Coordinator.Environments

namespace Coordinator

open Result Table

def validateOperationDefinition (operation : OperationDefinition) : Outcome Unit := do
  ensure (¬ Text.isBlank operation.kind)
    (.invalidJobDefinition "operation kind must not be empty")
  ensure (operation.maxAttempts ≠ 0)
    (.invalidJobDefinition ("operation " ++ Text.debug operation.kind ++
      " must allow at least one attempt"))
  ensure (operation.maxAttempts ≤ i32Max)
    (.invalidJobDefinition ("operation " ++ Text.debug operation.kind ++
      " exceeds PostgreSQL's attempt limit"))

def validateJobDefinition (definition : JobDefinition) : Outcome Unit := do
  ensure (¬ Text.isBlank definition.kind) (.invalidJobDefinition "job kind must not be empty")
  ensure (definition.operations ≠ [])
    (.invalidJobDefinition "at least one operation is required")
  forM definition.operations validateOperationDefinition

def continuationRound (nextOrdinal : Nat) : Outcome Nat := do
  ensure (4 ≤ nextOrdinal ∧ (nextOrdinal - 4) % 3 = 0)
    (.invalidInput ("job operations are not a complete factory.task lifecycle (next ordinal " ++
      toString nextOrdinal ++ ")"))
  pure ((nextOrdinal - 4) / 3 + 1)

def continuedTask (task : String) (round : Nat) (feedback : String) : String :=
  Text.trimEnd task ++ "\n\n## Follow-up feedback (round " ++ toString round ++ ")\n\n" ++
    feedback

def continuationOperations (feedback : String) (round : Nat) : List OperationDefinition :=
  [⟨"codex.iterate",
      .object [("feedback", .string feedback), ("round", .number (.int round))], 3⟩,
    ⟨"codex.review", .object [], 3⟩,
    ⟨"codex.remediate", .object [], 3⟩]

def jobCancelledFailure : Json.Value :=
  .object [("cause", .string "jobCancelled"),
    ("message", .string "job cancellation acknowledged after runtime cleanup")]

namespace Store

def insertOperations (now : Timestamp) (jobId : JobId) (newId : Nat → OperationId)
    (outOfRange : CoordinatorError) :
    List OperationDefinition → Nat → Store → Outcome Store
  | [], _, s => pure s
  | operation :: rest, ordinal, s => do
      ensure (ordinal ≤ i32Max) outOfRange
      ensure (operation.maxAttempts ≤ i32Max) (.numericRange "maximum attempts")
      let s ← s.insertOperation
        ⟨newId ordinal, jobId, ordinal, operation.kind, operation.input, .ready,
          operation.maxAttempts, now⟩
      insertOperations now jobId newId outOfRange rest (ordinal + 1) s

def createJob (now : Timestamp) (definition : JobDefinition) (jobId : JobId)
    (newId : Nat → OperationId) (s : Store) : Outcome Store := do
  validateJobDefinition definition
  let s ← s.insertJob ⟨jobId, definition.kind, definition.input, .queued, now⟩
  s.insertOperations now jobId newId (.numericRange "operation ordinal") definition.operations 0

def workspaceActive (jobId : JobId) (s : Store) : Bool :=
  s.workspaces.any (fun w => w.jobId = jobId ∧ w.status = .active)

def nextOrdinal (jobId : JobId) (s : Store) : Nat :=
  ((s.operationsOf jobId).map (·.ordinal + 1)).foldl max 0

def continueJob (now : Timestamp) (jobId : JobId) (feedback : String)
    (newId : Nat → OperationId) (s : Store) : Outcome Store := do
  let feedback := Text.trim feedback
  ensure (feedback ≠ "") (.invalidInput "continuation feedback must not be empty")
  let job ← okOr (s.findJob jobId) (.jobNotFound jobId)
  ensure (job.kind = "factory.task")
    (.invalidInput ("job kind " ++ Text.debug job.kind ++ " does not support continuation"))
  ensure (job.status = .succeeded) (.jobNotContinuable jobId job.status.asDatabaseValue)
  ensure (s.workspaceActive jobId) (.workspaceNotFound jobId)
  let s ← s.reactivateInTransaction jobId
  let nextOrdinal := s.nextOrdinal jobId
  ensure (nextOrdinal ≤ i32Max) (.database .numericValueOutOfRange)
  let round ← continuationRound nextOrdinal
  let task ← okOr ((job.input.get "task").bind Json.Value.asStr)
    (.invalidInput "job input has no task text")
  let input := job.input.set "task" (.string (continuedTask task round feedback))
  let s := { s with
    jobs := updateWhere (fun j => j.jobId = jobId)
      ({ · with input := input, status := .queued }) s.jobs }
  s.insertOperations now jobId newId (.database .numericValueOutOfRange)
    (continuationOperations feedback round) nextOrdinal

def cancelUnfinishedOperations (jobId : JobId) (s : Store) : Store :=
  { s with
    operations := updateWhere
      (fun o => o.jobId = jobId ∧
        (o.status = .ready ∨ o.status = .running ∨ o.status = .retryWait))
      ({ · with status := .cancelled }) s.operations }

def hasRunningAttempt (jobId : JobId) (s : Store) : Bool :=
  s.attempts.any (fun a => a.status = .running ∧
    s.operations.any (fun o => o.operationId = a.operationId ∧ o.jobId = jobId))

def cancelJob (jobId : JobId) (s : Store) : Outcome Store := do
  let job ← okOr (s.findJob jobId) (.jobNotFound jobId)
  match job.status with
  | .cancelled | .cancelling => pure s
  | .queued | .running =>
    if s.hasRunningAttempt jobId then pure (s.setJobStatus jobId .cancelling)
    else
      pure (((s.cancelUnfinishedOperations jobId).setJobStatus jobId
        .cancelled).requestReleaseInTransaction jobId)
  | .succeeded | .failed => .error (.jobNotCancellable jobId job.status.asDatabaseValue)

def acknowledgeJobCancellation (now : Timestamp) (fence : AttemptFence) (s : Store) :
    Outcome Store := do
  let context ← s.lockAttemptContext now fence
  ensure (context.jobStatus = .cancelling)
    (.jobNotCancellable context.jobId context.jobStatus.asDatabaseValue)
  ensure (∀ e ∈ s.findEnvironment context.jobId, e.status = .released)
    (.invalidInput ("execution environment for cancelling job " ++ context.jobId ++
      " must be released before acknowledgement"))
  let s := s.setAttempt fence.attemptId
    ({ · with status := .abandoned, failure := some jobCancelledFailure })
  pure ((s.cancelUnfinishedOperations context.jobId).setJobStatus context.jobId .cancelled)

def putWorkspace (binding : WorkspaceBinding) (s : Store) : Outcome Store := do
  ensure (s.jobs.any (fun j => j.jobId = binding.jobId))
    (.database (.foreignKeyViolation "factory_workspaces_job_id_fkey"))
  ensure (binding.repositoryId ≠ "" ∧ binding.repository ≠ "" ∧ binding.baseRef ≠ "" ∧
      binding.baseRevision ≠ "" ∧ binding.branchName ≠ "" ∧ binding.root ≠ "" ∧
      binding.revision ≠ "")
    (.database (.checkViolation "factory_workspaces"))
  if s.workspaces.any (fun w => w.jobId = binding.jobId) then
    pure { s with
      workspaces := updateWhere (fun w => w.jobId = binding.jobId)
        ({ · with
          repository := binding.repository, baseRef := binding.baseRef
          branchName := binding.branchName, root := binding.root
          revision := binding.revision, status := .active }) s.workspaces }
  else
    pure { s with
      workspaces := s.workspaces ++
        [⟨binding.jobId, binding.repositoryId, binding.repository, binding.baseRef,
          binding.baseRevision, binding.branchName, binding.root, binding.revision, .active⟩] }

def markWorkspaceRemoved (jobId : JobId) (s : Store) : Outcome Store := do
  ensure (s.workspaces.any (fun w => w.jobId = jobId)) (.workspaceNotFound jobId)
  pure { s with
    workspaces := updateWhere (fun w => w.jobId = jobId) ({ · with status := .removed })
      s.workspaces }

end Store

end Coordinator
