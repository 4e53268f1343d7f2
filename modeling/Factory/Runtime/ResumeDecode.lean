import Factory.Coordinator.RecoveryCheckpoint
import Factory.Runtime.CheckpointTrail

namespace Runtime

open Coordinator Coordinator.Store Result Table ResumePoint

variable {s : Store} {now : Timestamp} {job : JobRow} {operation : OperationRow}

inductive ResumeSource (s : Store) (operation : OperationRow) : Option CheckpointRecord → Prop where
  | absent (first : operation.ordinal = 0)
      (unwritten : ∀ c ∈ s.checkpoints, ∀ o ∈ s.operations, o.jobId = operation.jobId →
        ¬ s.WrittenBy c o.operationId) : ResumeSource s operation none
  | own (c : CheckpointRecord) (mem : c ∈ s.checkpoints)
      (written : s.WrittenBy c operation.operationId) : ResumeSource s operation (some c)
  | predecessor (c : CheckpointRecord) (p : OperationRow) (mem : c ∈ s.checkpoints)
      (operation_mem : p ∈ s.operations) (job : p.jobId = operation.jobId)
      (ordinal : p.ordinal + 1 = operation.ordinal) (written : s.WrittenBy c p.operationId)
      (finished : Finished c) : ResumeSource s operation (some c)

structure Handover (s : Store) (operation p : OperationRow) (a : AttemptRow)
    (c : CheckpointRecord) : Prop where
  operation_mem : p ∈ s.operations
  job : p.jobId = operation.jobId
  ordinal : p.ordinal + 1 = operation.ordinal
  attempt_mem : a ∈ s.attempts
  attempt : a.operationId = p.operationId
  last : ∀ b ∈ s.attempts, b.operationId = p.operationId → b.attemptNumber ≤ a.attemptNumber
  mem : c ∈ s.checkpoints
  owned : c.attemptId = a.attemptId
  finished : Finished c
  greatest : ∀ d ∈ s.checkpoints, d.attemptId = a.attemptId → d = c ∨ d.sequence < c.sequence

theorem handover (sound : s.Sound) (trail : Trail s) (recoverable : Recoverable now s job operation)
    (task : isTask s operation.jobId) (later : operation.ordinal ≠ 0) :
    ∃ p a c, Handover s operation p a c := by
  obtain ⟨p,hp,owner,ordinal⟩ := sound.wellFormed.operation_at recoverable.operation_mem
    (Nat.sub_one_lt later)
  have succeeded := recoverable.predecessors p hp owner (ordinal ▸ Nat.sub_one_lt later)
  obtain ⟨a,ha,attempt,status,last⟩ := sound.succeeded_attempt hp succeeded
  have serves : Serves s a.attemptId operation.jobId p.ordinal :=
    ⟨a,ha,rfl,p,hp,attempt.symm,owner,rfl,task⟩
  obtain ⟨c,hc,owned,finished,greatest⟩ := trail.finished a ha status _ _ serves
  exact ⟨p,a,c,hp,owner,by omega,ha,attempt,last,hc,owned,finished,greatest⟩

theorem Handover.latest {p o : OperationRow} {a b : AttemptRow} {c d : CheckpointRecord}
    (h : Handover s operation p a c) (wf : s.WellFormed) (hd : d ∈ s.checkpoints)
    (hb : b ∈ s.attempts) (own : b.attemptId = d.attemptId) (ho : o ∈ s.operations)
    (owned : o.operationId = b.operationId) (job : o.jobId = operation.jobId)
    (below : o.ordinal < operation.ordinal)
    (latest : checkpointKey (c, a, p) ≤ checkpointKey (d, b, o)) : d = c ∧ o = p := by
  have ordinal := h.ordinal
  have order := checkpointKey_le.mp latest
  simp only at order
  obtain rfl : o = p :=
    wf.ordinals_unique ho h.operation_mem (job.trans h.job.symm) (by omega)
  have bound := h.last b hb owned.symm
  obtain rfl : b = a :=
    wf.numbers_unique hb h.attempt_mem (owned.symm.trans h.attempt.symm) (by omega)
  rcases h.greatest d hd own.symm with same | smaller
  · exact ⟨same,rfl⟩
  · omega

theorem unfinished (recoverable : Recoverable now s job operation) :
    operation.status ≠ .succeeded := by
  intro status
  rcases recoverable.eligible with ⟨_,_,ready | waiting⟩ | ⟨running,_⟩
  · rw [status] at ready
    cases ready
  · rw [status] at waiting
    cases waiting
  · rw [status] at running
    cases running

theorem unwritten_of_first (sound : s.Sound) (recoverable : Recoverable now s job operation)
    (first : operation.ordinal = 0) (none_ : s.recoveryCheckpoint operation = none) :
    ∀ c ∈ s.checkpoints, ∀ o ∈ s.operations, o.jobId = operation.jobId →
      ¬ s.WrittenBy c o.operationId := by
  intro c hc o ho owner written
  by_cases start : o.ordinal = 0
  · exact recoveryCheckpoint_none none_ (Nat.zero_le _) ho owner start c hc written
  · obtain ⟨a,ha,_,owned⟩ := written
    obtain ⟨holder,hholder,same⟩ := sound.wellFormed.operation_job ho
    have tried : s.attemptsOf o.operationId ≠ [] :=
      List.ne_nil_of_mem (mem_attemptsOf.mpr ⟨ha,owned⟩)
    refine unfinished recoverable (sound.predecessors hholder
      (mem_operationsOf.mpr ⟨ho,same.symm⟩) tried
      (mem_operationsOf.mpr ⟨recoverable.operation_mem,owner.symm.trans same.symm⟩) ?_)
    omega

theorem resumeSource (sound : s.Sound) (trail : Trail s)
    (recoverable : Recoverable now s job operation) (task : isTask s operation.jobId) :
    ResumeSource s operation (s.recoveryCheckpoint operation) := by
  cases chosen : s.recoveryCheckpoint operation with
  | none =>
    have first : operation.ordinal = 0 := by
      by_contra later
      obtain ⟨p,a,c,h⟩ := handover sound trail recoverable task later
      have ordinal := h.ordinal
      exact recoveryCheckpoint_none chosen (by omega) h.operation_mem h.job rfl c h.mem
        ⟨a,h.attempt_mem,h.owned.symm,h.attempt⟩
    exact .absent first (unwritten_of_first sound recoverable first chosen)
  | some c =>
    obtain ⟨hc,a,ha,own,o,ho,owned,owner,below,greatest⟩ :=
      recoveryCheckpoint_some chosen
    by_cases same : o.ordinal = operation.ordinal
    · obtain rfl := sound.wellFormed.ordinals_unique ho recoverable.operation_mem owner same
      exact .own c hc ⟨a,ha,own,owned.symm⟩
    · obtain ⟨p,b,d,h⟩ := handover sound trail recoverable task (by omega)
      have ordinal := h.ordinal
      obtain ⟨rfl,rfl⟩ := h.latest sound.wellFormed hc ha own ho owned owner (by omega)
        (greatest d h.mem b h.attempt_mem h.owned.symm p h.operation_mem h.attempt.symm h.job
          (by omega))
      exact .predecessor c o hc ho owner h.ordinal ⟨a,ha,own,owned.symm⟩ h.finished

variable {s t : Store} {now : Timestamp} {job : JobRow} {operation : OperationRow}
  {context : OperationExecutionContext} {kind : OperationKind}

structure Identification (s : Store) (context : OperationExecutionContext) (kind : OperationKind)
    (resume : ResumePoint) : Prop where
  fresh : resume = .fresh ↔ kind = .plan ∧
    ∀ c ∈ s.checkpoints, ∀ o ∈ s.operations, o.jobId = context.job.jobId →
      ¬ s.WrittenBy c o.operationId
  current : (∃ checkpoint correlationId, resume = .current checkpoint correlationId) ↔
    ∃ record, context.lease.selection.resume = .fromCheckpoint record ∧
      s.WrittenBy record context.operation.operationId
  previous : (∃ checkpoint, resume = .previous checkpoint) ↔
    ∃ record, context.lease.selection.resume = .fromCheckpoint record ∧ Finished record ∧
      ∃ p ∈ s.operations, p.jobId = context.job.jobId ∧
        p.ordinal + 1 = context.operation.ordinal ∧ s.WrittenBy record p.operationId
  decoded : ∀ checkpoint ∈ resume.correlationCheckpoint,
    ∃ record, context.lease.selection.resume = .fromCheckpoint record ∧
      StageCheckpoint.decode record = .ok checkpoint

structure Selected (s : Store) (operation : OperationRow) (context : OperationExecutionContext) :
    Prop where
  key : context.operation.key = operation.key
  job : context.job.jobId = operation.jobId
  resume : context.lease.selection.resume =
    (s.recoveryCheckpoint operation).elim .fresh .fromCheckpoint
  correlation : context.lease.selection.checkpointCorrelation =
    ((s.recoveryCheckpoint operation).bind (·.correlationId)).bind
      (fun id => s.correlations.find? (fun c => c.correlationId = id))

theorem OperationKind.atOrdinal_succ_ne (ordinal : Nat) :
    atOrdinal ordinal ≠ atOrdinal (ordinal + 1) := by
  by_cases early : ordinal < 4
  · have small : ordinal = 0 ∨ ordinal = 1 ∨ ordinal = 2 ∨ ordinal = 3 := by omega
    rcases small with rfl | rfl | rfl | rfl <;> decide
  · have past (n : Nat) (late : 4 ≤ n) : all[n]? = none := List.getElem?_eq_none late
    have length : all.length = 4 := rfl
    rw [atOrdinal,atOrdinal,past ordinal (by omega),past (ordinal + 1) (by omega),length]
    have residue : (ordinal - 4) % 3 = 0 ∨ (ordinal - 4) % 3 = 1 ∨ (ordinal - 4) % 3 = 2 := by omega
    rcases residue with zero | one | two
    · rw [zero,show (ordinal + 1 - 4) % 3 = 1 by omega]
      decide
    · rw [one,show (ordinal + 1 - 4) % 3 = 2 by omega]
      decide
    · rw [two,show (ordinal + 1 - 4) % 3 = 0 by omega]
      decide

variable {c : CheckpointRecord}

theorem WrittenBy.operation_eq (wf : s.WellFormed) {left right : OperationId}
    (byLeft : s.WrittenBy c left) (byRight : s.WrittenBy c right) :
    left = right := by
  obtain ⟨a,ha,own,rfl⟩ := byLeft
  obtain ⟨b,hb,own',rfl⟩ := byRight
  rw [wf.attempt_eq ha hb (own.trans own'.symm)]

theorem WrittenBy.ordinal_eq (wf : s.WellFormed) {o p : OperationRow} (ho : o ∈ s.operations)
    (hp : p ∈ s.operations) (byLeft : s.WrittenBy c o.operationId)
    (byRight : s.WrittenBy c p.operationId) : o.ordinal = p.ordinal := by
  rw [wf.operation_eq ho hp
    (WrittenBy.operation_eq wf byLeft byRight)]

theorem Checkout.unique (trail : Trail s) {jobId : JobId} {root revision : String}
    {w : WorkspaceRow} (hw : w ∈ s.workspaces) (job : w.jobId = jobId)
    (checkout : Checkout s jobId root revision) : root = w.root ∧ revision = w.revision := by
  obtain ⟨v,hv,same⟩ := List.mem_map.mp checkout
  simp only [WorkspaceRow.worktree,Prod.mk.injEq] at same
  obtain ⟨owner,rfl,rfl⟩ := same
  obtain rfl := List.inj_on_of_nodup_map trail.workspaces_unique hv hw (owner.trans job.symm)
  exact ⟨rfl,rfl⟩

theorem serves_of_written (task : isTask s operation.jobId) {o : OperationRow}
    (ho : o ∈ s.operations) (owner : o.jobId = operation.jobId)
    (written : s.WrittenBy c o.operationId) :
    Serves s c.attemptId operation.jobId o.ordinal := by
  obtain ⟨a,ha,own,owned⟩ := written
  exact ⟨a,ha,own,o,ho,owned.symm,owner,rfl,task⟩

namespace ResumePoint

variable {record : CheckpointRecord} {checkpoint : StageCheckpoint} {ordinal : Nat}
  {root revision : String}

section Placed

variable (rootEq : record.workspaceRoot = some root)
  (revisionEq : record.workspaceRevision = some revision)
  (decoded : StageCheckpoint.decode record = .ok checkpoint)

include rootEq revisionEq decoded

theorem decodeRecord_placed :
    decodeRecord record ordinal kind root revision =
      if checkpoint.operation = kind then .ok (.current checkpoint record.correlationId)
      else (do
        ensure (ordinal ≠ 0) (.terminal "plan stage resumed from another operation")
        ensure (checkpoint.operation = OperationKind.atOrdinal (ordinal - 1) ∧
            checkpoint.phase = .completed)
          (.terminal ("resume checkpoint is not the completed immediately preceding Factory stage"))
        pure (.previous checkpoint)) := by
  have place : ensure (record.workspaceRoot = some root ∧ record.workspaceRevision = some revision)
      (ExecutionFailure.terminal
        "resume checkpoint does not belong to the current managed worktree") = .ok () :=
    ensure_ok.mpr ⟨rootEq,revisionEq⟩
  rw [decodeRecord,place,decoded]
  rfl

theorem decodeRecord_current (own : checkpoint.operation = kind) :
    decodeRecord record ordinal kind root revision =
      .ok (.current checkpoint record.correlationId) := by
  rw [decodeRecord_placed rootEq revisionEq decoded,if_pos own]

theorem decodeRecord_previous (other : checkpoint.operation ≠ kind) (later : ordinal ≠ 0)
    (predecessor : checkpoint.operation = .atOrdinal (ordinal - 1))
    (completed : checkpoint.phase = .completed) :
    decodeRecord record ordinal kind root revision = .ok (.previous checkpoint) := by
  rw [decodeRecord_placed rootEq revisionEq decoded,if_neg other]
  simp only [bind_ok,ensure_ok]
  exact ⟨(),later,(),⟨predecessor,completed⟩,rfl⟩

end Placed

end ResumePoint

section Selection

variable {workspace : WorkspaceRow} {c : CheckpointRecord}

theorem identified_absent (selected : Selected s operation context)
    (stage : OperationKind.atOrdinal context.operation.ordinal = kind)
    (first : operation.ordinal = 0)
    (unwritten : ∀ c ∈ s.checkpoints, ∀ o ∈ s.operations, o.jobId = operation.jobId →
      ¬ s.WrittenBy c o.operationId) (chosen : s.recoveryCheckpoint operation = none) :
    decode context kind workspace.root workspace.revision = .ok .fresh ∧
      Identification s context kind .fresh := by
  have ordinal : context.operation.ordinal = 0 := by
    have same := congrArg (·.2.2) selected.key
    exact same.trans first
  have plan : kind = .plan := by
    rw [← stage,ordinal]
    rfl
  have resume : context.lease.selection.resume = .fresh := by
    rw [selected.resume,chosen]
    rfl
  have noRecord : ∀ record, context.lease.selection.resume ≠ .fromCheckpoint record := by
    intro record same
    rw [resume] at same
    cases same
  refine ⟨?_,?_,?_,?_,by rintro _ ⟨⟩⟩
  · rw [decode,resume]
    simp only [bind_ok,ensure_ok]
    exact ⟨(),⟨plan,ordinal⟩,rfl⟩
  · rw [selected.job]
    exact ⟨fun _ => ⟨plan,unwritten⟩,fun _ => rfl⟩
  · refine ⟨by rintro ⟨_,_,⟨⟩⟩,?_⟩
    rintro ⟨record,same,_⟩
    exact absurd same (noRecord record)
  · refine ⟨by rintro ⟨_,⟨⟩⟩,?_⟩
    rintro ⟨record,same,_⟩
    exact absurd same (noRecord record)

theorem filed_placed (trail : Trail s) {ordinal : Nat} {checkpoint : StageCheckpoint}
    (filed : Filed s operation.jobId ordinal c checkpoint) (hw : workspace ∈ s.workspaces)
    (owner : workspace.jobId = operation.jobId) :
    c.workspaceRoot = some workspace.root ∧ c.workspaceRevision = some workspace.revision := by
  obtain ⟨root,revision,rootEq,revisionEq,checkout⟩ := filed.checkout
  obtain ⟨rfl,rfl⟩ := checkout.unique trail hw owner
  exact ⟨rootEq,revisionEq⟩

section Chosen

variable (selected : Selected s operation context)
  (chosen : s.recoveryCheckpoint operation = some c)

include selected chosen

theorem selected_resume :
    context.lease.selection.resume = .fromCheckpoint c := by
  rw [selected.resume,chosen]
  rfl

theorem decode_selected :
    decode context kind workspace.root workspace.revision =
      decodeRecord c context.operation.ordinal kind workspace.root
        workspace.revision := by
  rw [decode,selected_resume selected chosen]

theorem selected_record {record : CheckpointRecord}
    (same : context.lease.selection.resume = .fromCheckpoint record) : record = c := by
  rw [selected_resume selected chosen] at same
  injection same with same
  exact same.symm

end Chosen

section Identifying

variable (sound : s.Sound) (trail : Trail s) (recoverable : Recoverable now s job operation)
  (task : isTask s operation.jobId) (selected : Selected s operation context)
  (stage : OperationKind.atOrdinal context.operation.ordinal = kind) (hw : workspace ∈ s.workspaces)
  (owner : workspace.jobId = operation.jobId) (chosen : s.recoveryCheckpoint operation = some c)
  (mem : c ∈ s.checkpoints)

include sound trail recoverable task selected stage hw owner chosen mem

theorem identified_own (written : s.WrittenBy c operation.operationId) :
    ∃ checkpoint, decode context kind workspace.root workspace.revision =
        .ok (.current checkpoint c.correlationId) ∧ checkpoint.operation = kind ∧
      Identification s context kind (.current checkpoint c.correlationId) := by
  obtain ⟨checkpoint,filed⟩ := trail.filed c mem operation.jobId operation.ordinal
    (serves_of_written task recoverable.operation_mem rfl written)
  obtain ⟨rootEq,revisionEq⟩ := filed_placed trail filed hw owner
  have id : context.operation.operationId = operation.operationId := congrArg (·.1) selected.key
  have ordinal : context.operation.ordinal = operation.ordinal := congrArg (·.2.2) selected.key
  have own : checkpoint.operation = kind := by rw [filed.stage,← stage,ordinal]
  refine ⟨checkpoint,?_,own,?_,?_,?_,?_⟩
  · rw [decode_selected selected chosen]
    exact decodeRecord_current rootEq revisionEq filed.decoded own
  · refine ⟨nofun,?_⟩
    rintro ⟨_,unwritten⟩
    exact absurd written
      (unwritten c mem operation recoverable.operation_mem selected.job.symm)
  · refine ⟨fun _ => ⟨c,selected_resume selected chosen,id ▸ written⟩,fun _ => ⟨_,_,rfl⟩⟩
  · refine ⟨nofun,?_⟩
    rintro ⟨record,same,_,p,hp,_,before,byOther⟩
    obtain rfl := selected_record selected chosen same
    have := WrittenBy.ordinal_eq sound.wellFormed hp recoverable.operation_mem byOther written
    omega
  · intro found hit
    obtain rfl := Option.some.inj hit
    exact ⟨c,selected_resume selected chosen,filed.decoded⟩

theorem identified_predecessor {p : OperationRow} (hp : p ∈ s.operations)
    (pJob : p.jobId = operation.jobId) (before : p.ordinal + 1 = operation.ordinal)
    (written : s.WrittenBy c p.operationId) (finished : Finished c) :
    ∃ checkpoint, decode context kind workspace.root workspace.revision =
        .ok (.previous checkpoint) ∧
      Identification s context kind (.previous checkpoint) := by
  obtain ⟨checkpoint,filed⟩ := trail.filed c mem operation.jobId p.ordinal
    (serves_of_written task hp pJob written)
  obtain ⟨rootEq,revisionEq⟩ := filed_placed trail filed hw owner
  have id : context.operation.operationId = operation.operationId := congrArg (·.1) selected.key
  have ordinal : context.operation.ordinal = p.ordinal + 1 :=
    (congrArg (·.2.2) selected.key).trans before.symm
  have completed : checkpoint.phase = .completed := by
    obtain ⟨same,decoded,phase⟩ := finished
    rw [filed.decoded] at decoded
    cases decoded
    exact phase
  have other : checkpoint.operation ≠ kind := by
    rw [filed.stage,← stage,ordinal]
    exact OperationKind.atOrdinal_succ_ne p.ordinal
  refine ⟨checkpoint,?_,?_,?_,?_,?_⟩
  · rw [decode_selected selected chosen]
    refine decodeRecord_previous rootEq revisionEq filed.decoded other (by omega) ?_
      completed
    rw [filed.stage,ordinal,Nat.add_sub_cancel]
  · refine ⟨nofun,?_⟩
    rintro ⟨_,unwritten⟩
    exact absurd written (unwritten c mem p hp (pJob.trans selected.job.symm))
  · refine ⟨nofun,?_⟩
    rintro ⟨record,same,byOwn⟩
    obtain rfl := selected_record selected chosen same
    rw [id] at byOwn
    have := WrittenBy.ordinal_eq sound.wellFormed hp recoverable.operation_mem written byOwn
    omega
  · exact ⟨fun _ => ⟨c,selected_resume selected chosen,finished,p,hp,
      pJob.trans selected.job.symm,ordinal.symm,written⟩,fun _ => ⟨_,rfl⟩⟩
  · intro found hit
    obtain rfl := Option.some.inj hit
    exact ⟨c,selected_resume selected chosen,filed.decoded⟩

end Identifying

end Selection

end Runtime
