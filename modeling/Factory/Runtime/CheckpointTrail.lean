import Factory.Runtime.Resume
import Factory.Runtime.ResumePoint
import Factory.Coordinator.LifecycleRefinement
import Factory.Coordinator.Recording

namespace Runtime

open Coordinator Result Coordinator.Store Table List

structure Worker where
  context : OperationExecutionContext
  kind : OperationKind
  root : String
  revision : String
  resume : ResumePoint
  turn : Option (StageLineage × CorrelationRecordId)
  held : Option (StageCheckpoint × CorrelationRecordId)
  deriving DecidableEq

structure Deployment where
  sys : System
  workers : List Worker

inductive RuntimeStep where
  | command (call : Call)
  | claim (elapsed : Nat) (scope : RecoveryScope) (request : ClaimRequest)
      (locked : List OperationId) (attemptId : AttemptId) (admitted : Bool)
  | reattach (worker elapsed : Nat) (correlationId : CorrelationRecordId)
  | startTurn (worker elapsed : Nat) (requestId : RequestId) (lineage : StageLineage)
      (correlationId : CorrelationRecordId)
  | write (worker elapsed : Nat) (completed : Bool) (role : StageTurnRole) (cycle : Nat)
      (baselines : FactoryStateBaselines) (checkpointId : CheckpointId)
  | complete (worker elapsed : Nat) (event : Option NewAttemptEvent)
      (checkpointId : CheckpointId)

def isTask (s : Store) (jobId : JobId) : Prop :=
  ∃ job ∈ s.jobs, job.jobId = jobId ∧ job.kind = "factory.task"

def isTaskAttempt (s : Store) (attemptId : AttemptId) : Prop :=
  ∃ attempt ∈ s.attempts, attempt.attemptId = attemptId ∧
    ∃ operation ∈ s.operations, operation.operationId = attempt.operationId ∧
      isTask s operation.jobId

instance (s : Store) (jobId : JobId) : Decidable (isTask s jobId) :=
  inferInstanceAs (Decidable (∃ job ∈ s.jobs, _))

instance (s : Store) (attemptId : AttemptId) : Decidable (isTaskAttempt s attemptId) :=
  inferInstanceAs (Decidable (∃ attempt ∈ s.attempts, _))

def permitted (s : Store) : Command → Bool
  | .claimRecovery _ _ _ _ => false
  | .saveCheckpoint fence _ _ => ¬ isTaskAttempt s fence.attemptId
  | .settleAttempt fence settlement checkpoint _ _ =>
    ¬ isTaskAttempt s fence.attemptId ∨ (settlement ≠ .succeeded ∧ checkpoint = none)
  | .putWorkspace binding =>
    ∀ workspace ∈ s.workspaces, workspace.jobId = binding.jobId →
      workspace.root = binding.root ∧ workspace.revision = binding.revision
  | _ => true

def startOperation (s : Store) (lease : RecoveryLease) : Option Worker := do
  let context ← loadContext s lease
  let kind ← (OperationKind.fromStr context.operation.kind).toOption
  let _ ← (validateJobShape s context kind).toOption
  let workspace ← context.workspace
  let resume ← (ResumePoint.decode context kind workspace.root workspace.revision).toOption
  pure ⟨context, kind, workspace.root, workspace.revision, resume, none, none⟩

def Worker.reattachment (worker : Worker) : Option (StageCheckpoint × Correlation) :=
  match worker.resume with
  | .fresh => none
  | .current checkpoint _ => do
      let correlation ← (checkpointTurnCorrelation worker.context checkpoint).toOption
      pure (checkpoint, correlation)
  | .previous checkpoint => do
      let completed ← if worker.kind = .remediate then
          (StageCheckpoint.completed .remediate checkpoint.lineage .review 1
            checkpoint.baselines).toOption
        else none
      let correlation ← (checkpointTurnCorrelation worker.context checkpoint).toOption
      pure (completed, correlation)

def Worker.record (worker : Worker) (completed : Bool) (role : StageTurnRole) (cycle : Nat)
    (baselines : FactoryStateBaselines) : Option (StageCheckpoint × OperationCheckpoint) := do
  let (lineage, correlationId) ← worker.turn
  let checkpoint ← (StageCheckpoint.new worker.kind lineage
    (if completed then .turnCompleted else .awaitingTurn) role cycle baselines).toOption
  let encoded ← (checkpoint.encode (some worker.root) (some worker.revision)
    (some correlationId)).toOption
  pure (checkpoint, encoded)

def Worker.final (worker : Worker) : Option OperationCheckpoint := do
  let (checkpoint, correlationId) ← worker.held
  let completed ← (finalCheckpoint checkpoint).toOption
  (completed.encode (some worker.root) (some worker.revision) (some correlationId)).toOption

namespace Deployment

def start (clock : Timestamp) : Deployment := ⟨System.init clock, []⟩

def outcome (d : Deployment) (elapsed : Nat) (command : Command) : Outcome (Response × Store) :=
  d.sys.store.exec (d.sys.clock + elapsed) command

def perform (d : Deployment) (elapsed : Nat) (command : Command) (index : Nat)
    (update : Worker → Worker) : Deployment :=
  ⟨d.sys.step ⟨elapsed, command⟩,
    if (d.outcome elapsed command).isOk then d.workers.modify index update else d.workers⟩

def claim (d : Deployment) (elapsed : Nat) (command : Command) (admitted : Bool) : Deployment :=
  ⟨d.sys.step ⟨elapsed, command⟩,
    match d.outcome elapsed command with
    | .ok (.lease (some lease), store) =>
      d.workers ++ (if admitted then (startOperation store lease).toList else [])
    | _ => d.workers⟩

def inRange (cycle : Nat) (baselines : FactoryStateBaselines) : Prop :=
  cycle ≤ u32Max ∧ baselines.revision ≤ Extension.u64Max ∧
    ∀ generation ∈ baselines.reviewGeneration, generation ≤ Extension.u64Max

instance (cycle : Nat) (baselines : FactoryStateBaselines) : Decidable (inRange cycle baselines) :=
  inferInstanceAs (Decidable (_ ∧ _))

def completion (d : Deployment) (index : Nat) (event : Option NewAttemptEvent)
    (checkpointId : CheckpointId) : Option Command := do
  let worker ← d.workers[index]?
  let checkpoint ← worker.final
  pure (.settleAttempt worker.context.lease.fence .succeeded
    (some (checkpoint.intoNew worker.context.lease.fence)) event checkpointId)

def step (d : Deployment) : RuntimeStep → Deployment
  | .command call =>
    if permitted d.sys.store call.command then ⟨d.sys.step call, d.workers⟩ else d
  | .claim elapsed scope request locked attemptId admitted =>
    d.claim elapsed (.claimRecovery scope request locked attemptId) admitted
  | .reattach index elapsed correlationId =>
    match d.workers[index]? with
    | none => d
    | some worker =>
      match worker.reattachment with
      | none => d
      | some (checkpoint, correlation) =>
        d.perform elapsed
          (.appendCorrelation worker.context.lease.fence correlation correlationId) index
          ({ · with held := some (checkpoint, correlationId) })
  | .startTurn index elapsed requestId lineage correlationId =>
    match d.workers[index]? with
    | none => d
    | some worker =>
      d.perform elapsed
        (.appendCorrelation worker.context.lease.fence
          (durableCorrelation worker.context requestId (some lineage.activeThreadId)
            (some lineage.turnId)) correlationId) index
        ({ · with turn := some (lineage, correlationId) })
  | .write index elapsed completed role cycle baselines checkpointId =>
    match d.workers[index]? with
    | none => d
    | some worker =>
      match worker.record completed role cycle baselines with
      | none => d
      | some (checkpoint, encoded) =>
        if inRange cycle baselines then
          d.perform elapsed
            (.saveCheckpoint worker.context.lease.fence
              (encoded.intoNew worker.context.lease.fence) checkpointId) index
            (fun worker =>
              { worker with
                held := if completed then
                    encoded.correlationId.map (checkpoint, ·)
                  else worker.held })
        else d
  | .complete index elapsed event checkpointId =>
    match d.completion index event checkpointId with
    | none => d
    | some command => d.perform elapsed command index id

end Deployment

variable {s t : Store} {command : Command} {attemptId : AttemptId} {jobId : JobId} {ordinal : Nat}

def Serves (s : Store) (attemptId : AttemptId) (jobId : JobId) (ordinal : Nat) : Prop :=
  ∃ a ∈ s.attempts, a.attemptId = attemptId ∧
    ∃ o ∈ s.operations, o.operationId = a.operationId ∧ o.jobId = jobId ∧ o.ordinal = ordinal ∧
      isTask s jobId

def Checkout (s : Store) (jobId : JobId) (root revision : String) : Prop :=
  (jobId, root, revision) ∈ s.workspaces.map (·.worktree)

def Names (s : Store) (correlationId : CorrelationRecordId) (attemptId : AttemptId)
    (threadId : ThreadId) (turnId : TurnId) : Prop :=
  ∃ row ∈ s.correlations, row.correlationId = correlationId ∧
    row.correlation.attemptId = attemptId ∧ row.correlation.threadId = some threadId ∧
    row.correlation.turnId = some turnId

structure Filed (s : Store) (jobId : JobId) (ordinal : Nat) (record : CheckpointRecord)
    (checkpoint : StageCheckpoint) : Prop where
  decoded : StageCheckpoint.decode record = .ok checkpoint
  stage : checkpoint.operation = .atOrdinal ordinal
  checkout : ∃ root revision, record.workspaceRoot = some root ∧
    record.workspaceRevision = some revision ∧ Checkout s jobId root revision
  correlated : ∃ correlationId, record.correlationId = some correlationId ∧
    Names s correlationId record.attemptId checkpoint.activeThreadId checkpoint.turnId

def Finished (record : CheckpointRecord) : Prop :=
  ∃ checkpoint, StageCheckpoint.decode record = .ok checkpoint ∧ checkpoint.phase = .completed

structure Trail (s : Store) : Prop where
  owned : ∀ c ∈ s.checkpoints, ∃ a ∈ s.attempts, a.attemptId = c.attemptId
  filed : ∀ c ∈ s.checkpoints, ∀ jobId ordinal, Serves s c.attemptId jobId ordinal →
    ∃ checkpoint, Filed s jobId ordinal c checkpoint
  finished : ∀ a ∈ s.attempts, a.status = .succeeded →
    ∀ jobId ordinal, Serves s a.attemptId jobId ordinal →
      ∃ c ∈ s.checkpoints, c.attemptId = a.attemptId ∧ Finished c ∧
        ∀ d ∈ s.checkpoints, d.attemptId = a.attemptId → d = c ∨ d.sequence < c.sequence
  correlations_unique : (s.correlations.map (·.correlationId)).Nodup
  workspaces_unique : (s.workspaces.map (·.jobId)).Nodup

structure Lawful (s : Store) (command : Command) : Prop where
  writes : ∀ fence checkpoint, command.writes = some (fence, checkpoint) →
    ∀ jobId ordinal, Serves s fence.attemptId jobId ordinal →
      ∀ checkpointId sequence, ∃ stage,
        Filed s jobId ordinal (checkpoint.row checkpointId sequence) stage
  succeeds : ∀ fence, command.succeeds = some fence →
    ∀ jobId ordinal, Serves s fence.attemptId jobId ordinal →
      ∃ checkpoint, command.writes = some (fence, checkpoint) ∧
        ∀ checkpointId sequence, Finished (checkpoint.row checkpointId sequence)
  binds : ∀ binding, command.binds = some binding →
    ∀ w ∈ s.workspaces, w.jobId = binding.jobId → w.worktree = binding.worktree

structure Extends (s t : Store) : Prop where
  persists : Persists s t
  correlations : ∀ row ∈ s.correlations, row ∈ t.correlations
  worktrees : ∀ w ∈ s.workspaces, w.worktree ∈ t.workspaces.map (·.worktree)

theorem Extends.refl (s : Store) : Extends s s where
  persists := ⟨fun j hj => ⟨j,hj,rfl⟩,fun o ho => ⟨o,ho,rfl⟩,fun a ha => ⟨a,ha,rfl⟩⟩
  correlations := fun _ => id
  worktrees := fun _ => mem_map_of_mem

theorem isTask_persists (h : Persists s t) (task : isTask s jobId) : isTask t jobId := by
  obtain ⟨j,hj,rfl,kind⟩ := task
  obtain ⟨k,hk,same⟩ := h.jobs j hj
  obtain ⟨id,sameKind⟩ := Prod.mk.inj same
  exact ⟨k,hk,id,sameKind.trans kind⟩

theorem Serves.persists (h : Persists s t) (serves : Serves s attemptId jobId ordinal) :
    Serves t attemptId jobId ordinal := by
  obtain ⟨a,ha,rfl,o,ho,owner,rfl,rfl,task⟩ := serves
  obtain ⟨b,hb,sameAttempt⟩ := h.attempts a ha
  obtain ⟨p,hp,sameOperation⟩ := h.operations o ho
  simp only [AttemptRow.key,OperationRow.key,Prod.mk.injEq] at sameAttempt sameOperation
  exact ⟨b,hb,sameAttempt.1,p,hp,
    sameOperation.1.trans (owner.trans sameAttempt.2.1.symm),sameOperation.2.1,
    sameOperation.2.2,isTask_persists h task⟩

theorem Serves.unique (wf : s.WellFormed) {jobId' : JobId} {ordinal' : Nat}
    (left : Serves s attemptId jobId ordinal) (right : Serves s attemptId jobId' ordinal') :
    jobId = jobId' ∧ ordinal = ordinal' := by
  obtain ⟨a,ha,id,o,ho,owner,rfl,rfl,_⟩ := left
  obtain ⟨b,hb,id',p,hp,owner',rfl,rfl,_⟩ := right
  obtain rfl := wf.attempt_eq ha hb (id.trans id'.symm)
  obtain rfl := wf.operation_eq ho hp (owner.trans owner'.symm)
  exact ⟨rfl,rfl⟩

theorem Serves.back (wf : s.WellFormed) (wf' : t.WellFormed) (h : Persists s t)
    (serves : Serves t attemptId jobId ordinal)
    (known : ∃ a ∈ s.attempts, a.attemptId = attemptId) :
    Serves s attemptId jobId ordinal := by
  obtain ⟨a,ha,rfl⟩ := known
  obtain ⟨o,ho,owner⟩ := wf.attempt_operation ha
  obtain ⟨j,hj,holder⟩ := wf.operation_job ho
  obtain ⟨b,hb,id,p,hp,owner',rfl,rfl,k,hk,holder',kind⟩ := serves
  obtain ⟨a',ha',sameAttempt⟩ := h.attempts a ha
  obtain ⟨o',ho',sameOperation⟩ := h.operations o ho
  obtain ⟨j',hj',sameJob⟩ := h.jobs j hj
  simp only [AttemptRow.key,OperationRow.key,JobRow.identity,Prod.mk.injEq]
    at sameAttempt sameOperation sameJob
  obtain rfl := wf'.attempt_eq hb ha' (id.trans sameAttempt.1.symm)
  obtain rfl : p = o' := by
    refine wf'.operation_eq hp ho' ?_
    rw [owner',sameAttempt.2.1,← owner,sameOperation.1]
  obtain rfl : k = j' := by
    refine wf'.job_eq hk hj' ?_
    rw [holder',sameOperation.2.1,← holder,sameJob.1]
  refine ⟨a,ha,rfl,o,ho,owner,sameOperation.2.1.symm,sameOperation.2.2.symm,j,hj,?_,?_⟩
  · rw [holder,sameOperation.2.1]
  · rw [← sameJob.2,kind]

theorem Names.mono (h : Extends s t) {correlationId : CorrelationRecordId} {threadId : ThreadId}
    {turnId : TurnId} (names : Names s correlationId attemptId threadId turnId) :
    Names t correlationId attemptId threadId turnId := by
  obtain ⟨row,hrow,rest⟩ := names
  exact ⟨row,h.correlations row hrow,rest⟩

theorem Checkout.mono (h : Extends s t) {root revision : String}
    (checkout : Checkout s jobId root revision) : Checkout t jobId root revision := by
  obtain ⟨w,hw,same⟩ := mem_map.mp checkout
  unfold Checkout
  rw [← same]
  exact h.worktrees w hw

theorem Filed.mono (h : Extends s t) {record : CheckpointRecord} {checkpoint : StageCheckpoint}
    (filed : Filed s jobId ordinal record checkpoint) :
    Filed t jobId ordinal record checkpoint := by
  obtain ⟨decoded,stage,⟨root,revision,rootEq,revisionEq,checkout⟩,id,idEq,names⟩ := filed
  exact ⟨decoded,stage,⟨root,revision,rootEq,revisionEq,checkout.mono h⟩,id,idEq,
    names.mono h⟩

theorem Lawful.extends (lawful : Lawful s command) (persists : Persists s t)
    (records : Records s command t) : Extends s t := by
  obtain ⟨added,grown⟩ := records.correlations
  refine ⟨persists,?_,?_⟩
  · intro row hrow
    rw [grown]
    exact mem_append_left _ hrow
  · intro w hw
    obtain ⟨v,hv,same | ⟨binding,binds,job,same⟩⟩ := records.worktrees w hw
    · rw [← same]
      exact mem_map_of_mem hv
    · rw [lawful.binds binding binds w hw job.symm,← same]
      exact mem_map_of_mem hv

variable {c : CheckpointRecord}

theorem mem_written {rows : List CheckpointRecord} {fence : AttemptFence}
    {checkpoint : NewCheckpoint} (writes : s.Writes fence checkpoint rows) (hc : c ∈ rows) :
    c ∈ s.checkpoints ∨ c.attemptId = fence.attemptId ∧
      ∃ checkpointId, c = checkpoint.row checkpointId
        (s.nextCheckpointSequence checkpoint.attemptId) := by
  obtain ⟨own,_,checkpointId,rfl⟩ := writes
  rcases mem_append.mp hc with old | new
  · exact Or.inl old
  · rw [mem_singleton.mp new]
    exact Or.inr ⟨own,checkpointId,rfl⟩

theorem mem_recorded (records : Records s command t) (hc : c ∈ t.checkpoints) :
    c ∈ s.checkpoints ∨ ∃ fence checkpoint, command.writes = some (fence, checkpoint) ∧
      (∃ a ∈ s.attempts, a.attemptId = fence.attemptId ∧ a.status = .running) ∧
      c.attemptId = fence.attemptId ∧
      ∃ checkpointId, c = checkpoint.row checkpointId
        (s.nextCheckpointSequence checkpoint.attemptId) := by
  rcases records.checkpoints with ⟨_,same⟩ | ⟨fence,checkpoint,command,writes⟩
  · exact Or.inl (same ▸ hc)
  · rcases mem_written writes hc with old | new
    · exact Or.inl old
    · exact Or.inr ⟨fence,checkpoint,command,writes.2.1,new⟩

theorem kept_checkpoints (records : Records s command t) (hc : c ∈ s.checkpoints) :
    c ∈ t.checkpoints := by
  rcases records.checkpoints with ⟨_,same⟩ | ⟨_,_,_,_,_,_,same⟩
  · exact same ▸ hc
  · rw [same]
    exact mem_append_left _ hc

namespace Trail

variable (trail : Trail s) (wf : s.WellFormed) (wf' : t.WellFormed) (lawful : Lawful s command)
  (persists : Persists s t) (records : Records s command t)

include trail persists records in
theorem step_owned : ∀ c ∈ t.checkpoints, ∃ a ∈ t.attempts, a.attemptId = c.attemptId := by
  intro c hc
  have known : ∃ a ∈ s.attempts, a.attemptId = c.attemptId := by
    rcases mem_recorded records hc with old | ⟨fence,_,_,⟨a,ha,own,_⟩,same,_⟩
    · exact trail.owned c old
    · exact ⟨a,ha,own.trans same.symm⟩
  obtain ⟨a,ha,own⟩ := known
  obtain ⟨b,hb,key⟩ := persists.attempts a ha
  exact ⟨b,hb,(congrArg Prod.fst key).trans own⟩

include trail wf wf' lawful persists records in
theorem step_filed : ∀ c ∈ t.checkpoints, ∀ jobId ordinal, Serves t c.attemptId jobId ordinal →
    ∃ checkpoint, Filed t jobId ordinal c checkpoint := by
  intro c hc jobId ordinal serves
  have extended := lawful.extends persists records
  rcases mem_recorded records hc with old | ⟨fence,new,writes,⟨a,ha,own,_⟩,same,id,rfl⟩
  · obtain ⟨checkpoint,filed⟩ :=
      trail.filed c old jobId ordinal (serves.back wf wf' persists (trail.owned c old))
    exact ⟨checkpoint,filed.mono extended⟩
  · rw [same] at serves
    obtain ⟨checkpoint,filed⟩ := lawful.writes fence new writes jobId ordinal
      (serves.back wf wf' persists ⟨a,ha,own⟩) id (s.nextCheckpointSequence new.attemptId)
    exact ⟨checkpoint,filed.mono extended⟩

include trail wf wf' lawful persists records in
theorem step_finished : ∀ a ∈ t.attempts, a.status = .succeeded →
    ∀ jobId ordinal, Serves t a.attemptId jobId ordinal →
      ∃ c ∈ t.checkpoints, c.attemptId = a.attemptId ∧ Finished c ∧
        ∀ d ∈ t.checkpoints, d.attemptId = a.attemptId → d = c ∨ d.sequence < c.sequence := by
  intro a ha done jobId ordinal serves
  rcases records.succeeded a ha done with ⟨b,hb,same,before⟩ | ⟨fence,settles,own,known⟩
  · rw [← same] at serves ⊢
    obtain ⟨c,hc,cOwn,finished,last⟩ := trail.finished b hb before jobId ordinal
      (serves.back wf wf' persists ⟨b,hb,rfl⟩)
    refine ⟨c,kept_checkpoints records hc,cOwn,finished,?_⟩
    intro d hd dOwn
    rcases mem_recorded records hd with old | ⟨_,_,_,⟨r,hr,rOwn,running⟩,dSame,_⟩
    · exact last d old dOwn
    · obtain rfl := wf.attempt_eq hr hb
        (rOwn.trans (dSame.symm.trans dOwn))
      rw [running] at before
      cases before
  · rw [own] at serves ⊢
    obtain ⟨new,writes,finished⟩ :=
      lawful.succeeds fence settles jobId ordinal (serves.back wf wf' persists known)
    rcases records.checkpoints with ⟨silent,_⟩ | ⟨fence',new',writes',written⟩
    · rw [writes] at silent
      cases silent
    · rw [writes] at writes'
      obtain ⟨rfl,rfl⟩ := Prod.mk.inj (Option.some.inj writes')
      obtain ⟨newOwn,_,id,grown⟩ := written
      refine ⟨new.row id (s.nextCheckpointSequence new.attemptId),?_,newOwn,finished _ _,?_⟩
      · rw [grown]
        exact mem_append_right _ mem_cons_self
      · intro d hd dOwn
        rw [grown] at hd
        rcases mem_append.mp hd with old | last
        · refine Or.inr ?_
          have below := lt_nextCheckpointSequence old
          rw [dOwn,← newOwn] at below
          exact below
        · exact Or.inl (mem_singleton.mp last)

include trail wf wf' lawful persists records in
theorem step : Trail t where
  owned := trail.step_owned persists records
  filed := trail.step_filed wf wf' lawful persists records
  finished := trail.step_finished wf wf' lawful persists records
  correlations_unique := records.correlations_unique trail.correlations_unique
  workspaces_unique := records.workspaces_unique trail.workspaces_unique

end Trail

end Runtime
