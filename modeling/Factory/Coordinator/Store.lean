import Factory.Library.Result
import Factory.Library.Table
import Factory.Coordinator.Domain

namespace Coordinator

open Result Table

structure Store where
  jobs : List JobRow
  operations : List OperationRow
  attempts : List AttemptRow
  correlations : List DurableCorrelationRecord
  checkpoints : List CheckpointRecord
  threadStates : List FactoryThreadStateRecord
  events : List JobEventRow
  nextSequence : Nat
  workspaces : List WorkspaceRow
  environments : List EnvironmentRow
  deriving DecidableEq

def Store.empty : Store := ⟨[], [], [], [], [], [], [], 1, [], []⟩

abbrev Outcome (α : Type) := Except CoordinatorError α

namespace Store

def findJob (s : Store) (jobId : JobId) : Option JobRow :=
  s.jobs.find? (fun j => j.jobId = jobId)

def findOperation (s : Store) (operationId : OperationId) : Option OperationRow :=
  s.operations.find? (fun o => o.operationId = operationId)

def findAttempt (s : Store) (attemptId : AttemptId) : Option AttemptRow :=
  s.attempts.find? (fun a => a.attemptId = attemptId)

def findEnvironment (s : Store) (jobId : JobId) : Option EnvironmentRow :=
  s.environments.find? (fun e => e.jobId = jobId)

def operationsOf (s : Store) (jobId : JobId) : List OperationRow :=
  s.operations.filter (fun o => o.jobId = jobId)

def attemptsOf (s : Store) (operationId : OperationId) : List AttemptRow :=
  s.attempts.filter (fun a => a.operationId = operationId)

def setJobStatus (jobId : JobId) (status : JobState) (s : Store) : Store :=
  { s with jobs := updateWhere (fun j => j.jobId = jobId) ({ · with status := status }) s.jobs }

def setOperationStatus (operationId : OperationId) (status : OperationState) (s : Store) : Store :=
  { s with
    operations := updateWhere (fun o => o.operationId = operationId)
      ({ · with status := status }) s.operations }

def setAttempt (attemptId : AttemptId) (f : AttemptRow → AttemptRow) (s : Store) : Store :=
  { s with attempts := updateWhere (fun a => a.attemptId = attemptId) f s.attempts }

def setEnvironment (jobId : JobId) (f : EnvironmentRow → EnvironmentRow) (s : Store) : Store :=
  { s with environments := updateWhere (fun e => e.jobId = jobId) f s.environments }

def insertJob (row : JobRow) (s : Store) : Outcome Store := do
  ensure (∀ j ∈ s.jobs, j.jobId ≠ row.jobId)
    (.database (.uniqueViolation "factory_jobs_pkey"))
  pure { s with jobs := s.jobs ++ [row] }

def insertOperation (row : OperationRow) (s : Store) : Outcome Store := do
  ensure (∀ o ∈ s.operations, o.operationId ≠ row.operationId)
    (.database (.uniqueViolation "factory_operations_pkey"))
  ensure (∀ o ∈ s.operations, ¬(o.jobId = row.jobId ∧ o.ordinal = row.ordinal))
    (.database (.uniqueViolation "factory_operations_job_id_ordinal_key"))
  pure { s with operations := s.operations ++ [row] }

def insertAttempt (row : AttemptRow) (s : Store) : Outcome Store := do
  ensure (∀ a ∈ s.attempts, a.attemptId ≠ row.attemptId)
    (.database (.uniqueViolation "factory_attempts_pkey"))
  ensure (∀ a ∈ s.attempts,
      ¬(a.operationId = row.operationId ∧ a.attemptNumber = row.attemptNumber))
    (.database (.uniqueViolation "factory_attempts_operation_id_attempt_number_key"))
  pure { s with attempts := s.attempts ++ [row] }

end Store

def databaseLeaseEpoch (leaseEpoch : Nat) : Outcome Nat := do
  ensure (leaseEpoch ≤ i64Max) (.numericRange "lease epoch")
  pure leaseEpoch

def databaseSequence (sequence : Nat) (field : String) : Outcome Nat := do
  ensure (sequence ≤ i64Max) (.numericRange field)
  pure sequence

end Coordinator
