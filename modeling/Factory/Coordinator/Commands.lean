import Factory.Coordinator.Events
import Factory.Library.Machine
import Factory.Coordinator.Recovery

namespace Coordinator

open Result Table Prod

namespace Store

def finishJob (jobId : JobId) (status : JobState) (s : Store) : Store :=
  (s.setJobStatus jobId status).requestReleaseInTransaction jobId

def hasRemaining (jobId : JobId) (s : Store) : Bool :=
  s.operations.any (fun o => o.jobId = jobId ∧ o.status ≠ .succeeded)

def settleSuccess (fence : AttemptFence) (context : AttemptContextRow) (s : Store) : Store :=
  let s := s.setAttempt fence.attemptId ({ · with status := .succeeded })
  let s := s.setOperationStatus context.operationId .succeeded
  if s.hasRemaining context.jobId then s
  else s.finishJob context.jobId .succeeded

def retryAt (context : AttemptContextRow) : AttemptFailure → Option Timestamp
  | .retryAt retryAt _ =>
    if context.attemptNumber < context.maxAttempts then some retryAt else none
  | .terminal _ => none

def settleFailure (fence : AttemptFence) (context : AttemptContextRow) (failure : AttemptFailure)
    (s : Store) : Store :=
  let s := s.setAttempt fence.attemptId
    ({ · with status := .failed, failure := some failure.toValue })
  match retryAt context failure with
  | some retryAt =>
    { s with
      operations := updateWhere (fun o => o.operationId = context.operationId)
        ({ · with status := .retryWait, nextEligibleAt := retryAt }) s.operations }
  | none => (s.setOperationStatus context.operationId .failed).finishJob context.jobId .failed

def settle (fence : AttemptFence) (context : AttemptContextRow) (settlement : AttemptSettlement)
    (s : Store) : Store :=
  match settlement with
  | .succeeded => s.settleSuccess fence context
  | .failed failure => s.settleFailure fence context failure

def insertOptionalCheckpoint (checkpoint : Option NewCheckpoint) (checkpointId : CheckpointId)
    (s : Store) : Outcome (Option CheckpointRecord × Store) :=
  match checkpoint with
  | none => pure (none, s)
  | some checkpoint => do
      let (row, s) ← s.insertCheckpoint checkpoint checkpointId
      pure (some row, s)

def insertOptionalEvent (context : AttemptContextRow) (fence : AttemptFence)
    (event : Option NewAttemptEvent) (s : Store) : Outcome Store :=
  match event with
  | none => pure s
  | some event => do
      let (_, s) ← s.insertAttemptEvent context fence event
      pure s

def settleAttemptWithEvent (now : Timestamp) (fence : AttemptFence)
    (settlement : AttemptSettlement) (checkpoint : Option NewCheckpoint)
    (completionEvent : Option NewAttemptEvent) (checkpointId : CheckpointId) (s : Store) :
    Outcome (Option CheckpointRecord × Store) := do
  let _ ← checkpoint.elim (pure ()) (validateCheckpoint fence)
  ensure (completionEvent.isSome → settlement = .succeeded)
    (.invalidInput "only a successful attempt can record a completion event")
  let context ← s.lockAttemptContext now fence
  ensure (context.jobStatus ≠ .cancelling) (.jobCancellationRequested context.jobId)
  let (record, s) ← s.insertOptionalCheckpoint checkpoint checkpointId
  let s ← (s.settle fence context settlement).insertOptionalEvent context fence completionEvent
  pure (record, s)

end Store

inductive Command where
  | createJob (definition : JobDefinition) (jobId : JobId) (newId : Nat → OperationId)
  | continueJob (jobId : JobId) (feedback : String) (newId : Nat → OperationId)
  | cancelJob (jobId : JobId)
  | acknowledgeJobCancellation (fence : AttemptFence)
  | putWorkspace (binding : WorkspaceBinding)
  | markWorkspaceRemoved (jobId : JobId)
  | claimRecovery (scope : RecoveryScope) (request : ClaimRequest) (locked : List OperationId)
      (attemptId : AttemptId)
  | renewAttempt (fence : AttemptFence) (leaseSeconds : Nat)
  | relinquishAttempt (fence : AttemptFence)
  | appendCorrelation (fence : AttemptFence) (correlation : Correlation)
      (correlationId : CorrelationRecordId)
  | saveCheckpoint (fence : AttemptFence) (checkpoint : NewCheckpoint)
      (checkpointId : CheckpointId)
  | putThreadState (fence : AttemptFence) (threadId : ThreadId) (state : Json.Value)
  | settleAttempt (fence : AttemptFence) (settlement : AttemptSettlement)
      (checkpoint : Option NewCheckpoint) (completionEvent : Option NewAttemptEvent)
      (checkpointId : CheckpointId)
  | appendJobEvent (event : NewJobEvent)
  | appendAttemptEvent (fence : AttemptFence) (event : NewAttemptEvent)
  | ensureExecutionEnvironment (fence : AttemptFence) (backend : String)
      (environmentId : ExecutionEnvironmentId)
  | reserveExecutionEnvironmentLocator (fence : AttemptFence) (generation : Nat)
      (locator : String)
  | requestCancellingExecutionEnvironmentRelease (fence : AttemptFence)
  | markExecutionEnvironmentReady (fence : AttemptFence) (generation : Nat)
      (backendRef url : String)
  | markExecutionEnvironmentFailed (fence : AttemptFence) (generation : Nat) (error : String)
  | requestExecutionEnvironmentRelease (jobId : JobId) (generation : Nat)
  | markExecutionEnvironmentReleased (jobId : JobId) (generation : Nat)

inductive Response where
  | unit
  | lease (lease : Option RecoveryLease)
  | correlation (record : DurableCorrelationRecord)
  | checkpoint (record : Option CheckpointRecord)
  | event (record : JobEventRow)
  | environment (record : Option EnvironmentRow)
  deriving DecidableEq

def Response.fences : Response → List AttemptFence
  | .lease (some claimed) => [claimed.fence]
  | _ => []

def Command.fence : Command → Option AttemptFence
  | .acknowledgeJobCancellation fence
  | .renewAttempt fence _
  | .relinquishAttempt fence
  | .appendCorrelation fence _ _
  | .saveCheckpoint fence _ _
  | .putThreadState fence _ _
  | .settleAttempt fence _ _ _ _
  | .appendAttemptEvent fence _
  | .ensureExecutionEnvironment fence _ _
  | .reserveExecutionEnvironmentLocator fence _ _
  | .requestCancellingExecutionEnvironmentRelease fence
  | .markExecutionEnvironmentReady fence _ _ _
  | .markExecutionEnvironmentFailed fence _ _ => some fence
  | _ => none

def Command.continues : Command → Option JobId
  | .continueJob jobId _ _ => some jobId
  | _ => none

namespace Store

def exec (now : Timestamp) (s : Store) : Command → Outcome (Response × Store)
  | .createJob definition jobId newId =>
    (Response.unit, ·) <$> s.createJob now definition jobId newId
  | .continueJob jobId feedback newId =>
    (Response.unit, ·) <$> s.continueJob now jobId feedback newId
  | .cancelJob jobId => (Response.unit, ·) <$> s.cancelJob jobId
  | .acknowledgeJobCancellation fence =>
    (Response.unit, ·) <$> s.acknowledgeJobCancellation now fence
  | .putWorkspace binding => (Response.unit, ·) <$> s.putWorkspace binding
  | .markWorkspaceRemoved jobId => (Response.unit, ·) <$> s.markWorkspaceRemoved jobId
  | .claimRecovery scope request locked attemptId =>
    map Response.lease id <$> s.claimRecovery now scope request locked attemptId
  | .renewAttempt fence leaseSeconds =>
    (Response.unit, ·) <$> s.renewAttempt now fence leaseSeconds
  | .relinquishAttempt fence => (Response.unit, ·) <$> s.relinquishAttempt now fence
  | .appendCorrelation fence correlation correlationId =>
    map Response.correlation id <$>
      s.appendCorrelation now fence correlation correlationId
  | .saveCheckpoint fence checkpoint checkpointId =>
    map (Response.checkpoint ∘ some) id <$>
      s.saveCheckpoint now fence checkpoint checkpointId
  | .putThreadState fence threadId state =>
    (Response.unit, ·) <$> s.putThreadState now fence threadId state
  | .settleAttempt fence settlement checkpoint completionEvent checkpointId =>
    map Response.checkpoint id <$>
      s.settleAttemptWithEvent now fence settlement checkpoint completionEvent checkpointId
  | .appendJobEvent event => map Response.event id <$> s.appendJobEvent event
  | .appendAttemptEvent fence event =>
    map Response.event id <$> s.appendAttemptEvent now fence event
  | .ensureExecutionEnvironment fence backend environmentId =>
    map (Response.environment ∘ some) id <$>
      s.ensureExecutionEnvironment now fence backend environmentId
  | .reserveExecutionEnvironmentLocator fence generation locator =>
    map (Response.environment ∘ some) id <$>
      s.reserveExecutionEnvironmentLocator now fence generation locator
  | .requestCancellingExecutionEnvironmentRelease fence =>
    map Response.environment id <$>
      s.requestCancellingExecutionEnvironmentRelease now fence
  | .markExecutionEnvironmentReady fence generation backendRef url =>
    map (Response.environment ∘ some) id <$>
      s.markExecutionEnvironmentReady now fence generation backendRef url
  | .markExecutionEnvironmentFailed fence generation error =>
    map (Response.environment ∘ some) id <$>
      s.markExecutionEnvironmentFailed now fence generation error
  | .requestExecutionEnvironmentRelease jobId generation =>
    map (Response.environment ∘ some) id <$>
      s.requestExecutionEnvironmentRelease jobId generation
  | .markExecutionEnvironmentReleased jobId generation =>
    map (Response.environment ∘ some) id <$>
      s.markExecutionEnvironmentReleased jobId generation

end Store

structure Call where
  elapsed : Nat
  command : Command

structure System where
  store : Store
  clock : Timestamp
  issued : List AttemptFence

namespace System

def init (clock : Timestamp) : System := ⟨Store.empty, clock, []⟩

def step (sys : System) (call : Call) : System :=
  let now := sys.clock + call.elapsed
  match sys.store.exec now call.command with
  | .error _ => { sys with clock := now }
  | .ok (response, store) => ⟨store, now, sys.issued ++ response.fences⟩

def continued (sys : System) (call : Call) : Option JobId :=
  match sys.store.exec (sys.clock + call.elapsed) call.command with
  | .error _ => none
  | .ok _ => call.command.continues

def run (sys : System) (calls : List Call) : System := Machine.run step sys calls

end System

end Coordinator
