import Factory.Coordinator.Artifacts
import Factory.Coordinator.EventCursor
import Factory.Coordinator.EventGrowth

namespace Coordinator

open Result List

structure DurableJob where
  job : JobRow
  operations : List OperationRow

namespace Store

def loadJob (jobId : JobId) (s : Store) : Outcome DurableJob := do
  let job ← okOr (s.findJob jobId) (.jobNotFound jobId)
  pure ⟨job, (s.operationsOf jobId).insertionSort (fun left right => left.ordinal ≤ right.ordinal)⟩

def visible (hidden : List Nat) (s : Store) : Store :=
  { s with events := s.events.filter (fun e => e.operationId.isSome ∨ e.sequence ∉ hidden) }

end Store

inductive PublisherKind where
  | runtime (attempt : AttemptState) (operationId : OperationId) (workspace : WorkspaceRow)
  | fullResult
  | artifacts

inductive PublisherPhase where
  | waiting
  | loading
  | preparing (job : DurableJob) (steps : List FileStep)
  | reading (job : DurableJob) (after : Nat) (events : List JobEventRow)
  | replacing (job : DurableJob) (events : List JobEventRow)
      (outputs : List CompletedStageOutput) (steps : List FileStep)

def PublisherPhase.locked : PublisherPhase → Bool
  | .waiting => false
  | _ => true

def PublisherPhase.steps : PublisherPhase → List FileStep
  | .preparing _ steps => steps
  | .replacing _ _ _ steps => steps
  | _ => []

def PublisherPhase.resume (steps : List FileStep) : PublisherPhase → PublisherPhase
  | .preparing job _ => .preparing job steps
  | .replacing job events outputs _ => .replacing job events outputs steps
  | phase => phase

structure Publisher where
  kind : PublisherKind
  projects : Bool
  phase : PublisherPhase

structure Publication where
  operations : List OperationRow
  events : List JobEventRow
  outputs : List CompletedStageOutput

structure PublicationSystem where
  coordinator : System
  files : ArtifactFiles
  lock : Option Nat
  publishers : Nat → Option Publisher
  finished : List Publication

inductive PublisherRequest where
  | runtime (attemptId : AttemptId) (operationId : OperationId)
  | fullResult
  | artifacts

inductive FileOutcome where
  | performed
  | failed (left : Option String)

inductive PublicationStep where
  | call (call : Call)
  | inventory (side : ArtifactSide) (file : JobArtifactFile) (contents : Option String)
  | start (id : Nat) (request : PublisherRequest) (hostRepositoryId : Option String)
  | lock (id : Nat)
  | loadJob (id : Nat)
  | readPage (id : Nat) (hidden : List Nat)
  | work (id : Nat) (uuid : String) (outcome : FileOutcome)
  | finish (id : Nat)
  | stop (id : Nat) (uuid : String) (left : Option String)

def requireSettledPublication (attempt : AttemptState) (operation : OperationState) :
    Outcome Unit := do
  ensure (attempt = .succeeded)
    (.invalidInput "artifact publication requires a settled successful attempt")
  ensure (operation = .succeeded)
    (.invalidInput "artifact publication requires a settled successful operation")

def eventPageSize : Nat := 1000

namespace Publisher

def opened (jobId : JobId) (hostRepositoryId : Option String) (s : Store) :
    PublisherRequest → Option Publisher
  | .runtime attemptId operationId => do
      let attempt ← s.findAttempt attemptId
      let workspace ← s.workspaces.find? (fun w => w.jobId = jobId)
      pure ⟨.runtime attempt.status operationId workspace,
        hasLocalProjection hostRepositoryId workspace.repositoryId, .waiting⟩
  | .fullResult => do
      let job ← s.findJob jobId
      pure ⟨.fullResult, hasLocalProjection hostRepositoryId (jobRepositoryId job), .waiting⟩
  | .artifacts => do
      let job ← s.findJob jobId
      pure ⟨.artifacts, hasLocalProjection hostRepositoryId (jobRepositoryId job), .waiting⟩

def inventory (job : DurableJob) (publisher : Publisher) : Outcome (List FileStep) :=
  match publisher.kind with
  | .runtime attempt operationId workspace => do
      let operation ← okOr (job.operations.find? (fun o => o.operationId = operationId))
        (.invalidInput "settled artifact operation is missing")
      requireSettledPublication attempt operation.status
      pure (initializeJobFiles publisher.projects job.job workspace)
  | .fullResult => pure (initializeMissingJobFiles job.job)
  | .artifacts => pure (initializeMissingJobFiles job.job)

def publishes (outputs : List CompletedStageOutput) (publisher : Publisher) : Bool :=
  match publisher.kind with
  | .runtime _ operationId _ => outputs.any (fun output => output.operationId = operationId)
  | .fullResult => outputs ≠ []
  | .artifacts => outputs ≠ []

def reduce (job : DurableJob) (events : List JobEventRow) (publisher : Publisher) :
    Option PublisherPhase :=
  match reduceSettledJobOutputs job.operations events with
  | .error _ => none
  | .ok outputs =>
    if publisher.publishes outputs then
      match publishSettledOutputs publisher.projects outputs with
      | .error _ => none
      | .ok steps => some (.replacing job events outputs steps)
    else none

def read (jobId : JobId) (s : Store) (job : DurableJob) (after : Nat)
    (events : List JobEventRow) (publisher : Publisher) : Option PublisherPhase :=
  match s.listJobEvents jobId after eventPageSize with
  | .error _ => none
  | .ok page =>
    if page.events.length < eventPageSize then publisher.reduce job (events ++ page.events)
    else some (.reading job page.nextCursor (events ++ page.events))

end Publisher

namespace PublicationSystem

def init (clock : Timestamp) : PublicationSystem :=
  ⟨System.init clock, fun _ => none, none, fun _ => none, []⟩

def store (sys : PublicationSystem) : Store := sys.coordinator.store

def close (id : Nat) (sys : PublicationSystem) : PublicationSystem :=
  { sys with
    lock := if sys.lock = some id then none else sys.lock
    publishers := Function.update sys.publishers id none }

def advance (id : Nat) (publisher : Publisher) (phase : PublisherPhase)
    (sys : PublicationSystem) : PublicationSystem :=
  { sys with
    publishers := Function.update sys.publishers id (some { publisher with phase := phase }) }

def follow (id : Nat) (publisher : Publisher) (phase : Option PublisherPhase)
    (sys : PublicationSystem) : PublicationSystem :=
  match phase with
  | none => sys.close id
  | some phase => sys.advance id publisher phase

def start (jobId : JobId) (id : Nat) (request : PublisherRequest)
    (hostRepositoryId : Option String) (sys : PublicationSystem) : PublicationSystem :=
  match sys.publishers id with
  | some _ => sys
  | none =>
    { sys with
      publishers := Function.update sys.publishers id
        (Publisher.opened jobId hostRepositoryId sys.store request) }

def acquire (id : Nat) (publisher : Publisher) (sys : PublicationSystem) : PublicationSystem :=
  match publisher.phase, sys.lock with
  | .waiting, none => { sys.advance id publisher .loading with lock := some id }
  | _, _ => sys

def load (jobId : JobId) (id : Nat) (publisher : Publisher) (sys : PublicationSystem) :
    PublicationSystem :=
  match publisher.phase with
  | .loading =>
    match sys.store.loadJob jobId with
    | .error _ => sys.close id
    | .ok job =>
      match publisher.inventory job with
      | .error _ => sys.close id
      | .ok steps => sys.advance id publisher (.preparing job steps)
  | _ => sys

def readPage (jobId : JobId) (id : Nat) (hidden : List Nat) (publisher : Publisher)
    (sys : PublicationSystem) : PublicationSystem :=
  match publisher.phase with
  | .preparing job [] =>
    sys.follow id publisher (publisher.read jobId (sys.store.visible hidden) job 0 [])
  | .reading job after events =>
    sys.follow id publisher (publisher.read jobId (sys.store.visible hidden) job after events)
  | _ => sys

def work (id : Nat) (uuid : String) (outcome : FileOutcome) (publisher : Publisher)
    (sys : PublicationSystem) : PublicationSystem :=
  match publisher.phase.steps with
  | [] => sys
  | step :: rest =>
    let failed (left : Option String) : PublicationSystem :=
      let sys := { sys with files := step.disturb uuid left sys.files }
      match step.side with
      | .coordinator => sys.close id
      | .projection => sys.advance id publisher (publisher.phase.resume rest)
    match outcome, step.perform publisher.projects uuid sys.files with
    | .performed, some (next, files) =>
      { sys.advance id publisher (publisher.phase.resume (next ++ rest)) with files := files }
    | .performed, none => failed none
    | .failed left, _ => failed left

def finish (id : Nat) (publisher : Publisher) (sys : PublicationSystem) : PublicationSystem :=
  match publisher.phase with
  | .replacing job events outputs [] =>
    { sys.close id with finished := sys.finished ++ [⟨job.operations, events, outputs⟩] }
  | _ => sys

def stop (id : Nat) (uuid : String) (left : Option String) (publisher : Publisher)
    (sys : PublicationSystem) : PublicationSystem :=
  match publisher.phase.steps with
  | [] => sys.close id
  | step :: _ => { sys.close id with files := step.disturb uuid left sys.files }

def forPublisher (id : Nat) (f : Publisher → PublicationSystem → PublicationSystem)
    (sys : PublicationSystem) : PublicationSystem :=
  match sys.publishers id with
  | none => sys
  | some publisher => f publisher sys

def step (jobId : JobId) (sys : PublicationSystem) : PublicationStep → PublicationSystem
  | .call call => { sys with coordinator := sys.coordinator.step call }
  | .inventory side file contents =>
    if file = .job ∨ file = .task then
      { sys with files := Function.update sys.files (side, file.fileName) contents }
    else sys
  | .start id request hostRepositoryId => sys.start jobId id request hostRepositoryId
  | .lock id => sys.forPublisher id (acquire id)
  | .loadJob id => sys.forPublisher id (load jobId id)
  | .readPage id hidden => sys.forPublisher id (readPage jobId id hidden)
  | .work id uuid outcome => sys.forPublisher id (work id uuid outcome)
  | .finish id => sys.forPublisher id (finish id)
  | .stop id uuid left => sys.forPublisher id (stop id uuid left)

def run (jobId : JobId) (sys : PublicationSystem) (steps : List PublicationStep) :
    PublicationSystem :=
  Machine.run (step jobId) sys steps

end PublicationSystem

def ownEvents (operationId : OperationId) (events : List JobEventRow) : List JobEventRow :=
  events.filter (fun event => event.operationId = some operationId)

def Reduced (operations : List OperationRow) (events : List JobEventRow)
    (outputs : List CompletedStageOutput) : Prop :=
  ∃ reduced, operations.mapM (reduceOperation events) = .ok reduced ∧ reduced.flatten = outputs

section Reducing

variable {operations longer : List OperationRow} {events other : List JobEventRow}
  {outputs later : List CompletedStageOutput} {operation : OperationRow}

theorem reduceOperation_ownEvents (events : List JobEventRow) (operation : OperationRow) :
    reduceOperation events operation =
      reduceOperation (ownEvents operation.operationId events) operation :=
  reduceOperation_woven (Woven.of_filter _ events) fun _ foreign =>
    Unseen.of_foreign (of_decide_eq_false foreign)

theorem reduceOperation_congr
    (same : ownEvents operation.operationId events = ownEvents operation.operationId other) :
    reduceOperation events operation = reduceOperation other operation := by
  rw [reduceOperation_ownEvents,same,← reduceOperation_ownEvents]

theorem reduceCompleted_stage {stage : ValidatedStageOutput} {output : CompletedStageOutput}
    (h : reduceCompletedStageOutput events stage = .ok output) : output.stage = stage.stage := by
  simp only [reduceCompletedStageOutput,bind_ok,pure_ok,ensure_ok] at h
  obtain ⟨-,-,_,_,_,_,rfl⟩ := h
  rfl

theorem reduceOperation_stage (h : reduceOperation events operation = .ok outputs) :
    outputs.map (·.stage) = [stageName operation] := by
  unfold reduceOperation at h
  simp only [bind_ok] at h
  obtain ⟨completion,-,findings,-,markers,-,accepted,-,rest⟩ := h
  split at rest
  · cases pure_ok.mp rest
    rfl
  · simp only [bind_ok,pure_ok,reduceOutputs_ok] at rest
    obtain ⟨-,-,_,⟨output,found,rfl⟩,rfl⟩ := rest
    simp only [map_cons,map_nil,cons.injEq,and_true]
    exact reduceCompleted_stage found

theorem reduced_iff :
    reduceSettledJobOutputs operations events = .ok outputs ↔
      Reduced (settledOperations operations) events outputs := by
  simp only [reduceSettledJobOutputs,bind_ok,pure_ok,Reduced]

theorem Reduced.congr (h : Reduced operations events outputs)
    (same : ∀ o ∈ operations, ownEvents o.operationId events = ownEvents o.operationId other) :
    Reduced operations other outputs := by
  obtain ⟨reduced,mapped,flat⟩ := h
  refine ⟨reduced,?_,flat⟩
  rw [← mapped]
  exact mapM_congr fun o listed => (reduceOperation_congr (same o listed)).symm

theorem Reduced.prefix (h : Reduced operations events outputs) (h' : Reduced longer events later)
    (shorter : operations <+: longer) : outputs <+: later := by
  obtain ⟨reduced,mapped,rfl⟩ := h
  obtain ⟨extended,mapped',rfl⟩ := h'
  obtain ⟨added,rfl⟩ := shorter
  rw [mapM_append,bind_ok] at mapped'
  obtain ⟨first,same,rest⟩ := mapped'
  cases mapped.symm.trans same
  simp only [bind_ok,pure_ok] at rest
  obtain ⟨second,-,rfl⟩ := rest
  rw [flatten_append]
  exact prefix_append _ _

theorem Reduced.stages (h : Reduced operations events outputs) :
    outputs.map (·.stage) = operations.map stageName := by
  obtain ⟨reduced,mapped,rfl⟩ := h
  induction operations generalizing reduced with
  | nil =>
    cases pure_ok.mp mapped
    rfl
  | cons o rest ih =>
    simp only [mapM_cons,bind_ok,pure_ok] at mapped
    obtain ⟨first,found,others,remaining,rfl⟩ := mapped
    rw [flatten_cons,map_append,reduceOperation_stage found,ih others remaining]
    rfl

end Reducing

structure Collected (events : List JobEventRow) (after : Nat) (collected : List JobEventRow)
    (operationId : OperationId) : Prop where
  split : ownEvents operationId collected ++
      (ownEvents operationId events).filter (fun e => after < e.sequence) =
    ownEvents operationId events

section Reading

variable {s : Store} {jobId : JobId} {after : Nat} {hidden : List Nat} {page : JobEventPage}
  {collected : List JobEventRow} {operationId : OperationId}

theorem Collected.start (numbered : Numbered s.events s.nextSequence) :
    Collected (s.jobEvents jobId) 0 [] operationId := by
  refine ⟨?_⟩
  rw [ownEvents,filter_nil,nil_append]
  refine filter_eq_self.mpr fun e listed => decide_eq_true ?_
  exact numbered.positive e (mem_of_mem_filter (mem_of_mem_filter listed))

def unread (jobId : JobId) (after : Nat) (hidden : List Nat) (s : Store) : List JobEventRow :=
  (s.visible hidden).events.filter (fun e => e.jobId = jobId ∧ after < e.sequence)

theorem unread_own (operationId : OperationId) :
    ownEvents operationId (unread jobId after hidden s) =
      (ownEvents operationId (s.jobEvents jobId)).filter (fun e => after < e.sequence) := by
  unfold ownEvents unread Store.visible Store.jobEvents
  simp only [filter_filter]
  refine filter_congr fun e _ => ?_
  cases e.operationId with
  | none => simp
  | some id =>
    simp only [Option.isSome_some,true_or,decide_true,Bool.and_true,Bool.decide_and]
    ac_rfl

theorem unread_ascending (numbered : Numbered s.events s.nextSequence) :
    (unread jobId after hidden s).Pairwise (fun a b => a.sequence < b.sequence) :=
  (numbered.ascending.sublist filter_sublist).sublist filter_sublist

theorem listJobEvents_page (numbered : Numbered s.events s.nextSequence)
    (h : (s.visible hidden).listJobEvents jobId after eventPageSize = .ok page) :
    page.events = (unread jobId after hidden s).take eventPageSize ∧
      page.nextCursor = (page.events.getLast?.map (·.sequence)).getD after := by
  simp only [Store.listJobEvents,bind_ok,ensure_ok,okOr_ok,pure_ok,
    databaseSequence_ok] at h
  obtain ⟨-,-,-,-,_,⟨-,rfl⟩,rfl⟩ := h
  have sorted : (unread jobId after hidden s).insertionSort
      (fun a b => a.sequence ≤ b.sequence) = unread jobId after hidden s :=
    List.Pairwise.insertionSort_eq ((unread_ascending numbered).imp Nat.le_of_lt)
  refine ⟨congrArg (take eventPageSize) sorted,rfl⟩

theorem ownEvents_append (first second : List JobEventRow) :
    ownEvents operationId (first ++ second) =
      ownEvents operationId first ++ ownEvents operationId second :=
  filter_append _ _

theorem Collected.next (h : Collected (s.jobEvents jobId) after collected operationId)
    (numbered : Numbered s.events s.nextSequence)
    (read : (s.visible hidden).listJobEvents jobId after eventPageSize = .ok page) :
    Collected (s.jobEvents jobId) page.nextCursor (collected ++ page.events) operationId := by
  obtain ⟨taken,cursor⟩ := listJobEvents_page numbered read
  obtain ⟨rest,rows⟩ : ∃ rest, page.events ++ rest = unread jobId after hidden s :=
    ⟨_,by rw [taken,take_append_drop]⟩
  have ahead : ∀ e ∈ page.events ++ rest, after < e.sequence := by
    rw [rows]
    exact fun e listed => (of_decide_eq_true (mem_filter.mp listed).2).2
  have ascending : (page.events ++ rest).Pairwise (fun a b => a.sequence < b.sequence) := by
    rw [rows]
    exact unread_ascending numbered
  obtain ⟨advance,passed,remaining⟩ := EventLog.nextCursor_split ascending ahead
  rw [← cursor] at advance passed remaining
  have own : ownEvents operationId page.events ++ ownEvents operationId rest =
      (ownEvents operationId (s.jobEvents jobId)).filter (fun e => after < e.sequence) := by
    rw [← ownEvents_append,rows,unread_own]
  have behind : (ownEvents operationId page.events).filter (fun e => page.nextCursor < e.sequence) =
      [] := filter_eq_nil_iff.mpr fun e listed hit =>
    Nat.not_lt.mpr (passed e (mem_of_mem_filter listed)) (of_decide_eq_true hit)
  have front : (ownEvents operationId rest).filter (fun e => page.nextCursor < e.sequence) =
      ownEvents operationId rest := filter_eq_self.mpr fun e listed =>
    decide_eq_true (remaining e (mem_of_mem_filter listed))
  have tail : (ownEvents operationId (s.jobEvents jobId)).filter
      (fun e => page.nextCursor < e.sequence) = ownEvents operationId rest := by
    calc (ownEvents operationId (s.jobEvents jobId)).filter (fun e => page.nextCursor < e.sequence)
        = ((ownEvents operationId (s.jobEvents jobId)).filter (fun e => after < e.sequence)).filter
            (fun e => page.nextCursor < e.sequence) := by
          rw [filter_filter]
          refine filter_congr fun e _ => ?_
          simp only [← Bool.decide_and,decide_eq_decide]
          omega
      _ = ownEvents operationId rest := by
          rw [← own,filter_append,behind,front,nil_append]
  refine ⟨?_⟩
  rw [ownEvents_append,tail,append_assoc,own]
  exact h.split

theorem Collected.complete (h : Collected (s.jobEvents jobId) after collected operationId)
    (numbered : Numbered s.events s.nextSequence)
    (read : (s.visible hidden).listJobEvents jobId after eventPageSize = .ok page)
    (short : page.events.length < eventPageSize) :
    ownEvents operationId (collected ++ page.events) =
      ownEvents operationId (s.jobEvents jobId) := by
  obtain ⟨taken,-⟩ := listJobEvents_page numbered read
  have whole : page.events = unread jobId after hidden s := by
    rw [taken,length_take] at short
    rw [taken]
    exact take_of_length_le (by omega)
  rw [ownEvents_append,whole,unread_own]
  exact h.split

end Reading

end Coordinator
