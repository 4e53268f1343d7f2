import Factory.Coordinator.Lease

namespace Coordinator

open Result Table EnvironmentRow

def validateNonempty (field : String) (value : String) : Outcome Unit :=
  ensure (¬ Text.isBlank value) (.invalidInput (field ++ " must not be empty"))

namespace EnvironmentRow

def requestRelease (e : EnvironmentRow) : EnvironmentRow :=
  { e with
    desiredState := .released
    status := if e.status = .released then .released else .releasing
    error := none }

def markReady (backendRef url : String) (e : EnvironmentRow) : EnvironmentRow :=
  { e with status := .ready, backendRef := some backendRef, url := some url, error := none }

def markFailed (error : String) (e : EnvironmentRow) : EnvironmentRow :=
  { e with status := .failed, error := some error }

def markReleased (e : EnvironmentRow) : EnvironmentRow :=
  { e with status := .released, url := none, error := none }

def reactivate (e : EnvironmentRow) : EnvironmentRow :=
  { e with
    generation := e.generation + 1
    desiredState := .active
    status := .provisioning
    backendRef := none
    url := none
    error := none }

end EnvironmentRow

namespace Store

def updateEnvironment (jobId : JobId) (guard : EnvironmentRow → Bool)
    (f : EnvironmentRow → EnvironmentRow) (s : Store) : Option EnvironmentRow × Store :=
  match s.environments.find? (fun e => e.jobId = jobId ∧ guard e) with
  | none => (none, s)
  | some e =>
    (some (f e),
      { s with
        environments := updateWhere (fun e => e.jobId = jobId ∧ guard e) f s.environments })

def requireGenerationMatch (jobId : JobId) (generation : Nat) (updated : Option EnvironmentRow)
    (desiredState : ExecutionEnvironmentDesiredState) (s : Store) : Outcome EnvironmentRow :=
  match updated with
  | some e => pure e
  | none => do
      let current ← okOr (s.findEnvironment jobId) (.executionEnvironmentNotFound jobId)
      ensure (current.generation = generation)
        (.executionEnvironmentGenerationStale jobId generation)
      ensure (current.desiredState = desiredState)
        (.invalidInput ("execution environment for job " ++ jobId ++ " has desired state " ++
          current.desiredState.debug))
      .error (.invalidInput ("execution environment for job " ++ jobId ++
        " rejected lifecycle transition"))

def insertEnvironmentIfAbsent (row : EnvironmentRow) (s : Store) : Outcome Store :=
  if s.environments.any (fun e => e.jobId = row.jobId) then pure s
  else do
    ensure (∀ e ∈ s.environments, e.environmentId ≠ row.environmentId)
      (.database (.uniqueViolation "factory_execution_environments_environment_id_key"))
    pure { s with environments := s.environments ++ [row] }

def ensureExecutionEnvironment (now : Timestamp) (fence : AttemptFence) (backend : String)
    (environmentId : ExecutionEnvironmentId) (s : Store) : Outcome (EnvironmentRow × Store) := do
  validateNonempty "execution environment backend" backend
  let context ← s.lockAttemptContext now fence
  ensure (context.jobStatus ≠ .cancelling) (.jobCancellationRequested context.jobId)
  let s ← s.insertEnvironmentIfAbsent
    ⟨context.jobId, environmentId, backend, 1, .active, .provisioning, none, none, none⟩
  let environment ← okOr (s.findEnvironment context.jobId)
    (.executionEnvironmentNotFound context.jobId)
  ensure (environment.backend = backend)
    (.invalidInput ("job " ++ context.jobId ++ " already uses execution environment backend " ++
      Text.debug environment.backend))
  ensure (environment.desiredState = .active)
    (.invalidInput ("execution environment for job " ++ context.jobId ++ " is awaiting release"))
  pure (environment, s)

def reserveExecutionEnvironmentLocator (now : Timestamp) (fence : AttemptFence)
    (generation : Nat) (locator : String) (s : Store) : Outcome (EnvironmentRow × Store) := do
  validateNonempty "execution environment locator" locator
  let generation ← databaseSequence generation "execution environment generation"
  let context ← s.lockAttemptContext now fence
  ensure (context.jobStatus ≠ .cancelling) (.jobCancellationRequested context.jobId)
  let current ← okOr (s.findEnvironment context.jobId)
    (.executionEnvironmentNotFound context.jobId)
  ensure (current.generation = generation)
    (.executionEnvironmentGenerationStale context.jobId generation)
  ensure (current.desiredState = .active)
    (.invalidInput ("execution environment for job " ++ context.jobId ++ " has desired state " ++
      current.desiredState.debug))
  if current.backendRef.isSome then pure (current, s)
  else
    let (updated, s) := s.updateEnvironment context.jobId
      (fun e => e.generation = generation ∧ e.desiredState = .active ∧ e.backendRef = none)
      ({ · with backendRef := some locator })
    let environment ← okOr updated (.database .rowNotFound)
    pure (environment, s)

def requestCancellingExecutionEnvironmentRelease (now : Timestamp) (fence : AttemptFence)
    (s : Store) : Outcome (Option EnvironmentRow × Store) := do
  let context ← s.lockAttemptContext now fence
  ensure (context.jobStatus = .cancelling)
    (.jobNotCancellable context.jobId context.jobStatus.asDatabaseValue)
  match s.findEnvironment context.jobId with
  | none => pure (none, s)
  | some current =>
    let generation ← databaseSequence current.generation "execution environment generation"
    let (updated, s) := s.updateEnvironment context.jobId (fun e => e.generation = generation)
      requestRelease
    let environment ← s.requireGenerationMatch context.jobId generation updated .released
    pure (some environment, s)

def fencedEnvironmentReport (now : Timestamp) (fence : AttemptFence) (generation : Nat)
    (f : EnvironmentRow → EnvironmentRow) (s : Store) : Outcome (EnvironmentRow × Store) := do
  let generation ← databaseSequence generation "execution environment generation"
  let context ← s.lockAttemptContext now fence
  ensure (context.jobStatus ≠ .cancelling) (.jobCancellationRequested context.jobId)
  let (updated, s) := s.updateEnvironment context.jobId
    (fun e => e.generation = generation ∧ e.desiredState = .active) f
  let environment ← s.requireGenerationMatch context.jobId generation updated .active
  pure (environment, s)

def markExecutionEnvironmentReady (now : Timestamp) (fence : AttemptFence) (generation : Nat)
    (backendRef url : String) (s : Store) : Outcome (EnvironmentRow × Store) := do
  validateNonempty "execution environment backend reference" backendRef
  validateNonempty "execution environment URL" url
  s.fencedEnvironmentReport now fence generation (markReady backendRef url)

def markExecutionEnvironmentFailed (now : Timestamp) (fence : AttemptFence) (generation : Nat)
    (error : String) (s : Store) : Outcome (EnvironmentRow × Store) := do
  validateNonempty "execution environment error" error
  s.fencedEnvironmentReport now fence generation (markFailed error)

def requestExecutionEnvironmentRelease (jobId : JobId) (generation : Nat) (s : Store) :
    Outcome (EnvironmentRow × Store) := do
  let generation ← databaseSequence generation "execution environment generation"
  let job ← okOr (s.findJob jobId) (.jobNotFound jobId)
  ensure (job.status = .succeeded ∨ job.status = .failed ∨ job.status = .cancelled)
    (.invalidInput ("execution environment for nonterminal job " ++ jobId ++
      " cannot be released"))
  let (updated, s) := s.updateEnvironment jobId (fun e => e.generation = generation)
    requestRelease
  let environment ← s.requireGenerationMatch jobId generation updated .released
  pure (environment, s)

def markExecutionEnvironmentReleased (jobId : JobId) (generation : Nat) (s : Store) :
    Outcome (EnvironmentRow × Store) := do
  let generation ← databaseSequence generation "execution environment generation"
  let (updated, s) := s.updateEnvironment jobId
    (fun e => e.generation = generation ∧ e.desiredState = .released) markReleased
  let environment ← s.requireGenerationMatch jobId generation updated .released
  pure (environment, s)

def requestReleaseInTransaction (jobId : JobId) (s : Store) : Store :=
  s.setEnvironment jobId requestRelease

def reactivateInTransaction (jobId : JobId) (s : Store) : Outcome Store :=
  let (updated, s) := s.updateEnvironment jobId
    (fun e => e.desiredState = .released ∧ e.status = .released) reactivate
  match updated with
  | some _ => pure s
  | none => do
      ensure (¬ s.environments.any (fun e => e.jobId = jobId))
        (.invalidInput ("execution environment for job " ++ jobId ++
          " must finish release before continuation"))
      pure s

end Store

end Coordinator
