import Factory.Runtime.ResumeDecode

namespace Runtime

open Coordinator Coordinator.Store Result Table Option StageCheckpoint

variable {s t : Store} {now : Timestamp} {lease : RecoveryLease}
  {context : OperationExecutionContext} {kind : OperationKind}

structure ClaimContext (now : Timestamp) (s t : Store) (context : OperationExecutionContext)
    (job : JobRow) (operation : OperationRow) : Prop where
  recoverable : Recoverable now s job operation
  selected : Selected s operation context
  task : isTask s operation.jobId
  serves : Serves t context.lease.fence.attemptId context.job.jobId context.operation.ordinal
  workspace : ∀ w ∈ context.workspace, w ∈ s.workspaces ∧ w.jobId = operation.jobId
  fence : context.lease.fence.attemptId = context.lease.attempt.attemptId

theorem loadContext_some (h : loadContext s lease = some context) :
    context.lease = lease ∧ context.job ∈ s.jobs ∧ context.job.jobId = lease.selection.jobId ∧
      context.operation ∈ s.operations ∧ context.operation.jobId = context.job.jobId ∧
      context.operation.operationId = lease.selection.operationId ∧
      context.workspace = s.workspaces.find? (fun w => w.jobId = context.job.jobId) := by
  simp only [loadContext,bind_eq_bind,bind_eq_some_iff,pure_def,
    some.injEq] at h
  obtain ⟨job,foundJob,operation,foundOperation,rfl⟩ := h
  obtain ⟨hjob,jobId⟩ := findJob_some foundJob
  obtain ⟨hoperation,owner⟩ := mem_operationsOf.mp (List.mem_of_find?_eq_some foundOperation)
  have operationId := List.find?_some foundOperation
  exact ⟨rfl,hjob,jobId,hoperation,owner,of_decide_eq_true operationId,rfl⟩

theorem validateJobShape_ok {u : Unit} (h : validateJobShape s context kind = .ok u) :
    context.job.kind = "factory.task" ∧
      OperationKind.atOrdinal context.operation.ordinal = kind := by
  simp only [validateJobShape,bind_ok,ensure_ok] at h
  obtain ⟨_,task,_,_,_,_,stage⟩ := h
  exact ⟨task,stage⟩

variable {job : JobRow} {operation : OperationRow} {selection : RecoverySelection}
  {attemptId : AttemptId} {request : ClaimRequest} {locked : List OperationId}
  {scope : RecoveryScope}

theorem recoverySelection_correlation (h : s.recoverySelection job operation = .ok selection) :
    selection.checkpointCorrelation = ((s.recoveryCheckpoint operation).bind
      (·.correlationId)).bind (fun id => s.correlations.find? (fun c => c.correlationId = id)) := by
  simp only [recoverySelection,bind_ok,pure_ok] at h
  obtain ⟨_,_,rfl⟩ := h
  rfl

theorem claimed_attempt (wf : s.WellFormed) {row : AttemptRow}
    (claim : Claimed now request attemptId s job operation selection row t) :
    row ∈ t.attempts ∧ row.operationId = operation.operationId := by
  cases claim with
  | started row _ _ row_eq =>
    refine ⟨List.mem_append_right _ List.mem_cons_self,?_⟩
    rw [row_eq]
  | reclaimed latest previous _ latest_eq found =>
    have hit := List.find?_some found
    have member := List.mem_of_find?_eq_some found
    obtain ⟨latestMember,owned⟩ := mem_attemptsOf.mp (List.argmax_mem latest_eq)
    obtain rfl := wf.attempt_eq member latestMember
      (AttemptRow.lapsed_iff.mp hit).1
    exact ⟨mem_updateWhere.mpr ⟨previous,member,if_pos hit⟩,owned⟩

theorem exec_claim
    (h : s.exec now (.claimRecovery scope request locked attemptId) =
      .ok (.lease (some lease), t)) :
    ∃ job operation, Recoverable now s job operation ∧
      s.recoverySelection job operation = .ok lease.selection ∧
      lease.fence = lease.attempt.fence ∧
      Claimed now request attemptId s job operation lease.selection lease.attempt t ∧
      Quiet s t := by
  simp only [exec,map_ok,Prod.exists,Prod.map,Prod.mk.injEq,id,Response.lease.injEq] at h
  obtain ⟨_,_,claim,rfl,rfl⟩ := h
  rcases claimRecovery_ok claim with ⟨absent,_⟩ | ⟨job,operation,selection,row,recoverable,
    selected,same,claimed⟩
  · cases absent
  · obtain rfl := some.inj same
    exact ⟨job,operation,recoverable,selected,rfl,claimed,claimRecovery_quiet claim⟩

theorem claimContext (wf : s.WellFormed) (wf' : t.WellFormed) (persists : Persists s t)
    (claimed : s.exec now (.claimRecovery scope request locked attemptId) =
      .ok (.lease (some lease), t)) (loaded : loadContext t lease = some context)
    (task : context.job.kind = "factory.task") :
    ∃ job operation, ClaimContext now s t context job operation := by
  obtain ⟨job,operation,recoverable,selection,fence,claim,quiet⟩ := exec_claim claimed
  obtain ⟨rfl,hjob,jobId,hoperation,owner,operationId,workspace⟩ := loadContext_some loaded
  obtain ⟨selectedJob,selectedOperation,_,_,_,resume⟩ := recoverySelection_ok selection
  obtain ⟨p,hp,key⟩ := persists.operations operation recoverable.operation_mem
  obtain ⟨k,hk,identity⟩ := persists.jobs job recoverable.job_mem
  simp only [JobRow.identity,Prod.mk.injEq] at identity
  have pId : p.operationId = operation.operationId := congrArg (·.1) key
  obtain rfl : context.operation = p := by
    refine wf'.operation_eq hoperation hp ?_
    rw [operationId,selectedOperation,pId]
  obtain rfl : context.job = k := by
    refine wf'.job_eq hjob hk ?_
    rw [jobId,selectedJob,identity.1]
  have jobEq : context.job.jobId = operation.jobId := by
    rw [identity.1,recoverable.owned]
  have isTaskJob : isTask s operation.jobId :=
    ⟨job,recoverable.job_mem,recoverable.owned.symm,identity.2.symm.trans task⟩
  obtain ⟨attemptMem,attemptOwner⟩ := claimed_attempt wf claim
  have sameAttempt : context.lease.fence.attemptId = context.lease.attempt.attemptId := by
    rw [fence]
    rfl
  refine ⟨job,operation,recoverable,⟨key,jobEq,resume,?_⟩,isTaskJob,?_,?_,sameAttempt⟩
  · exact recoverySelection_correlation selection
  · refine ⟨context.lease.attempt,attemptMem,sameAttempt.symm,context.operation,hoperation,?_,
      owner,rfl,context.job,hjob,rfl,task⟩
    rw [attemptOwner,← pId]
  · intro w hw
    rw [mem_def,workspace] at hw
    have mem := List.mem_of_find?_eq_some hw
    rw [quiet.workspaces] at mem
    have found := List.find?_some hw
    exact ⟨mem,(of_decide_eq_true found).trans jobEq⟩

theorem selected_correlation (trail : Trail s) (h : ClaimContext now s t context job operation)
    {record : CheckpointRecord} {checkpoint : StageCheckpoint}
    (resume : context.lease.selection.resume = .fromCheckpoint record)
    (decoded : StageCheckpoint.decode record = .ok checkpoint) :
    ∃ source, context.lease.selection.checkpointCorrelation = some source ∧
      source.correlation.threadId = some checkpoint.activeThreadId ∧
      source.correlation.turnId = some checkpoint.turnId := by
  rw [h.selected.resume] at resume
  cases chosen : s.recoveryCheckpoint operation with
  | none =>
    rw [chosen] at resume
    cases resume
  | some c =>
    rw [chosen] at resume
    obtain rfl : c = record := by
      injection resume
    obtain ⟨hc,a,ha,own,o,ho,owned,owner,_⟩ := recoveryCheckpoint_some chosen
    obtain ⟨found,filed⟩ := trail.filed c hc operation.jobId o.ordinal
      ⟨a,ha,own,o,ho,owned,owner,rfl,h.task⟩
    have same := filed.decoded
    rw [decoded] at same
    cases same
    obtain ⟨id,idEq,row,hrow,rowId,_,thread,turn⟩ := filed.correlated
    refine ⟨row,?_,thread,turn⟩
    rw [h.selected.correlation,chosen,bind_some,idEq,bind_some,← rowId]
    exact find_key DurableCorrelationRecord.correlationId trail.correlations_unique hrow

theorem claim_identified (sound : s.Sound) (trail : Trail s)
    (h : ClaimContext now s t context job operation)
    (stage : OperationKind.atOrdinal context.operation.ordinal = kind) {workspace : WorkspaceRow}
    (bound : context.workspace = some workspace) :
    ∃ resume, ResumePoint.decode context kind workspace.root workspace.revision = .ok resume ∧
      Identification s context kind resume ∧
      ∀ checkpoint correlationId, resume = .current checkpoint correlationId →
        checkpoint.operation = kind := by
  obtain ⟨hw,owner⟩ := h.workspace workspace bound
  have source := resumeSource sound trail h.recoverable h.task
  cases chosen : s.recoveryCheckpoint operation with
  | none =>
    rw [chosen] at source
    cases source with
    | absent first unwritten =>
      obtain ⟨decoded,identified⟩ :=
        @identified_absent _ _ _ _ workspace h.selected stage first unwritten chosen
      exact ⟨_,decoded,identified,nofun⟩
  | some c =>
    rw [chosen] at source
    cases source with
    | own _ mem written =>
      obtain ⟨checkpoint,decoded,own,identified⟩ := identified_own sound trail
        h.recoverable h.task h.selected stage hw owner chosen mem written
      refine ⟨_,decoded,identified,?_⟩
      rintro found _ ⟨⟩
      exact own
    | predecessor _ p mem hp pJob before written finished =>
      obtain ⟨checkpoint,decoded,identified⟩ := identified_predecessor sound trail
        h.recoverable h.task h.selected stage hw owner chosen mem hp pJob before written finished
      exact ⟨_,decoded,identified,nofun⟩

variable {s t : Store} {command : Command} {worker : Worker} {checkpoint : StageCheckpoint}
  {correlationId : CorrelationRecordId}

structure Held (s : Store) (worker : Worker) (checkpoint : StageCheckpoint)
    (correlationId : CorrelationRecordId) : Prop where
  stage : checkpoint.operation = worker.kind
  valid : checkpoint.validate = .ok ()
  range : checkpoint.InRange
  names : Names s correlationId worker.context.lease.fence.attemptId checkpoint.activeThreadId
    checkpoint.turnId

structure Attached (s : Store) (worker : Worker) : Prop where
  serves : Serves s worker.context.lease.fence.attemptId worker.context.job.jobId
    worker.context.operation.ordinal
  fence : worker.context.lease.fence.attemptId = worker.context.lease.attempt.attemptId
  stage : OperationKind.atOrdinal worker.context.operation.ordinal = worker.kind
  checkout : Checkout s worker.context.job.jobId worker.root worker.revision
  decoded : ∀ checkpoint ∈ worker.resume.correlationCheckpoint, ∃ record source,
    decode record = .ok checkpoint ∧
      worker.context.lease.selection.checkpointCorrelation = some source ∧
      source.correlation.threadId = some checkpoint.activeThreadId ∧
      source.correlation.turnId = some checkpoint.turnId
  current : ∀ checkpoint correlationId, worker.resume = .current checkpoint correlationId →
    checkpoint.operation = worker.kind
  turn : ∀ lineage correlationId, worker.turn = some (lineage, correlationId) →
    Names s correlationId worker.context.lease.fence.attemptId lineage.activeThreadId
      lineage.turnId
  held : ∀ checkpoint correlationId, worker.held = some (checkpoint, correlationId) →
    Held s worker checkpoint correlationId

theorem Held.mono (h : Extends s t) (held : Held s worker checkpoint correlationId) :
    Held t worker checkpoint correlationId :=
  ⟨held.stage,held.valid,held.range,held.names.mono h⟩

theorem Attached.mono (h : Extends s t) (attached : Attached s worker) : Attached t worker where
  serves := attached.serves.persists h.persists
  fence := attached.fence
  stage := attached.stage
  checkout := attached.checkout.mono h
  decoded := attached.decoded
  current := attached.current
  turn := fun lineage id hit => (attached.turn lineage id hit).mono h
  held := fun checkpoint id hit => (attached.held checkpoint id hit).mono h

theorem lawful_silent (writes : command.writes = none) (succeeds : command.succeeds = none)
    (binds : command.binds = none) : Lawful s command where
  writes := fun _ _ hit => by rw [writes] at hit; cases hit
  succeeds := fun _ hit => by rw [succeeds] at hit; cases hit
  binds := fun _ hit => by rw [binds] at hit; cases hit

theorem Serves.isTaskAttempt {attemptId : AttemptId} {jobId : JobId} {ordinal : Nat}
    (serves : Serves s attemptId jobId ordinal) : isTaskAttempt s attemptId := by
  obtain ⟨a,ha,own,o,ho,owned,rfl,_,task⟩ := serves
  exact ⟨a,ha,own,o,ho,owned,task⟩

theorem lawful_permitted (h : permitted s command = true) : Lawful s command := by
  cases command
  case saveCheckpoint fence checkpoint checkpointId =>
    have foreign : ¬ isTaskAttempt s fence.attemptId := of_decide_eq_true h
    refine ⟨?_,nofun,nofun⟩
    rintro _ _ ⟨⟩ jobId ordinal serves
    exact absurd serves.isTaskAttempt foreign
  case settleAttempt fence settlement checkpoint event checkpointId =>
    have closed : ¬ isTaskAttempt s fence.attemptId ∨
        (settlement ≠ .succeeded ∧ checkpoint = none) := of_decide_eq_true h
    rcases closed with foreign | ⟨failed,rfl⟩
    · refine ⟨?_,?_,nofun⟩
      · intro writer new writes jobId ordinal serves
        obtain ⟨_,_,same⟩ := map_eq_some_iff.mp writes
        obtain ⟨rfl,_⟩ := Prod.mk.inj same
        exact absurd serves.isTaskAttempt foreign
      · intro settler settles jobId ordinal serves
        cases settlement with
        | succeeded =>
          obtain rfl := some.inj settles
          exact absurd serves.isTaskAttempt foreign
        | failed failure => cases settles
    · refine ⟨nofun,?_,nofun⟩
      intro settler settles
      cases settlement with
      | succeeded => exact absurd rfl failed
      | failed failure => cases settles
  case putWorkspace binding =>
    have same : ∀ workspace ∈ s.workspaces, workspace.jobId = binding.jobId →
        workspace.root = binding.root ∧ workspace.revision = binding.revision :=
      of_decide_eq_true h
    refine ⟨nofun,nofun,?_⟩
    rintro _ ⟨⟩ w hw job
    obtain ⟨root,revision⟩ := same w hw job
    simp only [WorkspaceRow.worktree,WorkspaceBinding.worktree,job,root,revision]
  all_goals exact lawful_silent rfl rfl rfl

variable {encoded : OperationCheckpoint}

theorem encoded_filed (wf : s.WellFormed) (attached : Attached s worker)
    (held : Held s worker checkpoint correlationId) {jobId : JobId} {ordinal : Nat}
    (serves : Serves s worker.context.lease.fence.attemptId jobId ordinal)
    (encodes : checkpoint.encode (some worker.root) (some worker.revision) (some correlationId) =
      .ok encoded) (checkpointId : CheckpointId) (sequence : Nat) :
    Filed s jobId ordinal
      ((encoded.intoNew worker.context.lease.fence).row checkpointId sequence) checkpoint := by
  obtain ⟨rfl,rfl⟩ := serves.unique wf attached.serves
  obtain ⟨_,rfl⟩ := encode_ok encodes
  exact ⟨decode_encoded held.valid held.range rfl rfl,
    held.stage.trans attached.stage.symm,
    ⟨worker.root,worker.revision,rfl,rfl,attached.checkout⟩,correlationId,rfl,held.names⟩

theorem record_held (attached : Attached s worker) {completed : Bool} {role : StageTurnRole}
    {cycle : Nat} {baselines : FactoryStateBaselines} (range : Deployment.inRange cycle baselines)
    (h : worker.record completed role cycle baselines = some (checkpoint, encoded)) :
    ∃ correlationId, Held s worker checkpoint correlationId ∧
      checkpoint.encode (some worker.root) (some worker.revision) (some correlationId) =
        .ok encoded := by
  simp only [Worker.record,bind_eq_bind,bind_eq_some_iff,pure_def,
    some.injEq,Prod.mk.injEq] at h
  obtain ⟨⟨lineage,correlationId⟩,turn,built,new,encoded',encodes,rfl,rfl⟩ := h
  obtain ⟨rfl,valid⟩ := new_ok (toOption_some new)
  exact ⟨correlationId,⟨rfl,valid,⟨range.1,range.2.1,range.2.2⟩,
    attached.turn lineage correlationId turn⟩,toOption_some encodes⟩

theorem final_held (attached : Attached s worker) (h : worker.final = some encoded) :
    ∃ checkpoint correlationId, Held s worker checkpoint correlationId ∧
      checkpoint.phase = .completed ∧
      checkpoint.encode (some worker.root) (some worker.revision) (some correlationId) =
        .ok encoded := by
  simp only [Worker.final,bind_eq_bind,bind_eq_some_iff] at h
  obtain ⟨⟨checkpoint,correlationId⟩,hit,completed,final,encodes⟩ := h
  have held := attached.held checkpoint correlationId hit
  obtain ⟨built,valid⟩ := new_ok (toOption_some final)
  refine ⟨completed,correlationId,⟨?_,valid,?_,?_⟩,?_,toOption_some encodes⟩
  · rw [built]
    exact held.stage
  · rw [built]
    exact ⟨held.range.cycle,held.range.revision,held.range.generation⟩
  · rw [built]
    exact held.names
  · rw [built]
    rfl

structure Consistent (d : Deployment) : Prop where
  sound : d.sys.store.Sound
  trail : Trail d.sys.store
  workers : ∀ worker ∈ d.workers, Attached d.sys.store worker

namespace Consistent

variable {d : Deployment} {elapsed : Nat}

theorem advance (h : Consistent d) (elapsed : Nat) (lawful : Lawful d.sys.store command) :
    (d.sys.step ⟨elapsed, command⟩).store.Sound ∧ Trail (d.sys.step ⟨elapsed, command⟩).store ∧
      Extends d.sys.store (d.sys.step ⟨elapsed, command⟩).store := by
  have sound := d.sys.sound_step ⟨elapsed,command⟩ h.sound
  refine ⟨sound,?_⟩
  revert sound
  unfold System.step
  dsimp only
  cases outcome : d.sys.store.exec (d.sys.clock + elapsed) command with
  | error e => exact fun _ => ⟨h.trail,.refl _⟩
  | ok result =>
    obtain ⟨response,store⟩ := result
    intro sound
    have persists := exec_persists h.sound.wellFormed outcome
    have records := exec_records outcome
    exact ⟨h.trail.step h.sound.wellFormed sound.wellFormed lawful persists records,
      lawful.extends persists records⟩

theorem quiet_step (h : Consistent d) (elapsed : Nat) (lawful : Lawful d.sys.store command) :
    Consistent ⟨d.sys.step ⟨elapsed, command⟩, d.workers⟩ := by
  obtain ⟨sound,trail,extended⟩ := h.advance elapsed lawful
  exact ⟨sound,trail,fun worker hit => (h.workers worker hit).mono extended⟩

theorem stepped_store {response : Response} {store : Store}
    (outcome : d.outcome elapsed command = .ok (response, store)) :
    (d.sys.step ⟨elapsed, command⟩).store = store := by
  unfold System.step
  dsimp only
  rw [show d.sys.store.exec (d.sys.clock + elapsed) command = .ok (response, store) from outcome]

theorem perform (h : Consistent d) {index : Nat} {update : Worker → Worker}
    (lawful : Lawful d.sys.store command)
    (updated : ∀ response store, d.outcome elapsed command = .ok (response, store) →
      ∀ worker, d.workers[index]? = some worker → Attached store worker →
        Attached store (update worker)) :
    Consistent (d.perform elapsed command index update) := by
  obtain ⟨sound,trail,extended⟩ := h.advance elapsed lawful
  refine ⟨sound,trail,?_⟩
  intro worker hit
  simp only [Deployment.perform] at hit ⊢
  split at hit
  · next succeeded =>
      obtain ⟨⟨response,store⟩,outcome⟩ : ∃ result, d.outcome elapsed command = .ok result := by
        cases result : d.outcome elapsed command with
        | error e =>
          rw [result] at succeeded
          cases succeeded
        | ok value => exact ⟨value,rfl⟩
      obtain ⟨position,inside,rfl⟩ := List.mem_iff_getElem.mp hit
      rw [List.getElem_modify]
      have kept : ∀ old ∈ d.workers, Attached store old := by
        intro old member
        rw [← stepped_store outcome]
        exact (h.workers old member).mono extended
      rw [stepped_store outcome]
      split
      · next same =>
          subst same
          refine updated response store outcome _ (List.getElem?_eq_getElem _) ?_
          exact kept _ (List.getElem_mem _)
      · exact kept _ (List.getElem_mem _)
  · exact (h.workers worker hit).mono extended

end Consistent

end Runtime
