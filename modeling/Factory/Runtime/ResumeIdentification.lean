import Factory.Runtime.Workers

namespace Runtime

open Coordinator Coordinator.Store Result Table List StageCheckpoint Deployment

variable {s t : Store} {now : Timestamp} {worker : Worker} {checkpoint : StageCheckpoint}
  {correlationId : CorrelationRecordId} {elapsed : Nat}

variable {checkpointId : CheckpointId} {fence : AttemptFence} {event : Option NewAttemptEvent}
  {correlation : Correlation}

theorem insertCheckpoint_mismatch {checkpoint : NewCheckpoint}
    (h : s.insertCheckpoint checkpoint checkpointId = .error .checkpointCorrelationMismatch) :
    ¬ ∀ correlationId ∈ checkpoint.correlationId, ∃ c ∈ s.correlations,
      c.correlationId = correlationId ∧ c.correlation.attemptId = checkpoint.attemptId := by
  simp only [insertCheckpoint,bind_error,ensure_error,pure_error,reduceCtorEq,and_false,
    exists_false,or_false] at h
  exact h.1

theorem insertOptionalEvent_mismatch {context : AttemptContextRow} :
    s.insertOptionalEvent context fence event ≠ .error .checkpointCorrelationMismatch := by
  intro h
  cases event with
  | none => cases h
  | some event =>
    simp only [insertOptionalEvent,insertAttemptEvent,validateEventKind,
      validateDeduplicationKey,bind_error,ensure_error,pure_error,reduceCtorEq,and_false,
      exists_false,or_false,false_or] at h
    obtain ⟨_,_,_,_,h⟩ := h
    split at h
    · cases h
    · simp only [bind_error,ensure_error,pure_error,reduceCtorEq,and_false,exists_false,
        or_false] at h

theorem settle_mismatch {settlement : AttemptSettlement} {checkpoint : NewCheckpoint}
    (h : s.settleAttemptWithEvent now fence settlement (some checkpoint) event checkpointId =
      .error .checkpointCorrelationMismatch) :
    ¬ ∀ correlationId ∈ checkpoint.correlationId, ∃ c ∈ s.correlations,
      c.correlationId = correlationId ∧ c.correlation.attemptId = checkpoint.attemptId := by
  simp only [settleAttemptWithEvent,validateCheckpoint,lockAttemptContext,databaseLeaseEpoch,
    insertOptionalCheckpoint,Option.elim,bind_error,ensure_error,okOr_error,pure_error,
    reduceCtorEq,and_false,exists_false,or_false,false_or] at h
  obtain ⟨_,_,_,_,_,_,_,_,insert | ⟨_,_,later⟩⟩ := h
  · exact insertCheckpoint_mismatch insert
  · exact absurd later insertOptionalEvent_mismatch

theorem appended_names {response : Response} {threadId : ThreadId} {turnId : TurnId}
    (h : s.exec now (.appendCorrelation fence correlation correlationId) = .ok (response, t))
    (thread : correlation.threadId = some threadId) (turn : correlation.turnId = some turnId) :
    Names t correlationId fence.attemptId threadId turnId := by
  simp only [exec,map_ok,Prod.exists,Prod.map,Prod.mk.injEq,id] at h
  obtain ⟨row,_,append,_,rfl⟩ := h
  obtain ⟨own,_,_,_,rfl,rfl⟩ := appendCorrelation_ok append
  exact ⟨_,mem_append_right _ mem_cons_self,rfl,own,thread,turn⟩

theorem checkpointTurnCorrelation_ok (attached : Attached s worker)
    (hit : checkpoint ∈ worker.resume.correlationCheckpoint) :
    ∃ correlation, checkpointTurnCorrelation worker.context checkpoint = .ok correlation ∧
      correlation.attemptId = worker.context.lease.attempt.attemptId ∧
      correlation.threadId = some checkpoint.activeThreadId ∧
      correlation.turnId = some checkpoint.turnId := by
  obtain ⟨_,source,_,found,thread,turn⟩ := attached.decoded checkpoint hit
  have correlated : checkpointTurnCorrelation worker.context checkpoint =
      .ok (durableCorrelation worker.context source.correlation.requestId
        (some checkpoint.activeThreadId) (some checkpoint.turnId)) := by
    simp only [checkpointTurnCorrelation,bind_ok,okOr_ok,ensure_ok]
    exact ⟨source,found,(),⟨thread,turn⟩,rfl⟩
  exact ⟨_,correlated,attached.fence,rfl,rfl⟩

theorem correlation_names {context : OperationExecutionContext}
    (h : checkpointTurnCorrelation context checkpoint = .ok correlation) :
    correlation.threadId = some checkpoint.activeThreadId ∧
      correlation.turnId = some checkpoint.turnId := by
  simp only [checkpointTurnCorrelation,bind_ok,pure_ok] at h
  obtain ⟨_,_,_,_,rfl⟩ := h
  exact ⟨rfl,rfl⟩

structure Reattachable (worker : Worker) (checkpoint : StageCheckpoint)
    (correlation : Correlation) : Prop where
  stage : checkpoint.operation = worker.kind
  valid : checkpoint.validate = .ok ()
  range : checkpoint.InRange
  thread : correlation.threadId = some checkpoint.activeThreadId
  turn : correlation.turnId = some checkpoint.turnId

theorem reattachment_some (attached : Attached s worker)
    (h : worker.reattachment = some (checkpoint, correlation)) :
    Reattachable worker checkpoint correlation := by
  unfold Worker.reattachment at h
  split at h
  · cases h
  · next found id resume =>
      simp only [Option.bind_eq_bind,Option.bind_eq_some_iff,Option.pure_def,Option.some.injEq,
        Prod.mk.injEq] at h
      obtain ⟨_,correlated,rfl,rfl⟩ := h
      obtain ⟨thread,turn⟩ := correlation_names (toOption_some correlated)
      obtain ⟨record,_,decoded,_⟩ := attached.decoded found (by rw [resume]; rfl)
      obtain ⟨valid,range⟩ := decode_ok decoded
      exact ⟨attached.current found id resume,valid,range,thread,turn⟩
  · next found resume =>
      dsimp only at h
      split at h
      · next remediate =>
          simp only [Option.bind_eq_bind,Option.bind_eq_some_iff,Option.pure_def,
            Option.some.injEq,Prod.mk.injEq] at h
          obtain ⟨completed,built,_,correlated,rfl,rfl⟩ := h
          obtain ⟨thread,turn⟩ := correlation_names (toOption_some correlated)
          obtain ⟨record,_,decoded,_⟩ := attached.decoded found (by rw [resume]; rfl)
          obtain ⟨_,range⟩ := decode_ok decoded
          obtain ⟨rfl,valid⟩ := new_ok (toOption_some built)
          have cycle : 1 ≤ u32Max := by decide
          exact ⟨remediate.symm,valid,⟨cycle,range.revision,range.generation⟩,thread,turn⟩
      · cases h

theorem Attached.hold {update : Option (StageCheckpoint × CorrelationRecordId)}
    (attached : Attached s worker)
    (held : ∀ checkpoint correlationId, update = some (checkpoint, correlationId) →
      Held s worker checkpoint correlationId) :
    Attached s { worker with held := update } where
  serves := attached.serves
  fence := attached.fence
  stage := attached.stage
  checkout := attached.checkout
  decoded := attached.decoded
  current := attached.current
  turn := attached.turn
  held := fun checkpoint id hit =>
    let held := held checkpoint id hit
    ⟨held.stage,held.valid,held.range,held.names⟩

theorem Attached.begin {lineage : StageLineage} (attached : Attached s worker)
    (names : Names s correlationId worker.context.lease.fence.attemptId lineage.activeThreadId
      lineage.turnId) :
    Attached s { worker with turn := some (lineage, correlationId) } where
  serves := attached.serves
  fence := attached.fence
  stage := attached.stage
  checkout := attached.checkout
  decoded := attached.decoded
  current := attached.current
  turn := by
    rintro _ _ ⟨⟩
    exact names
  held := fun checkpoint id hit =>
    let held := attached.held checkpoint id hit
    ⟨held.stage,held.valid,held.range,held.names⟩

theorem startOperation_attached (sound : s.Sound) (sound' : t.Sound) (trail : Trail s)
    (extended : Extends s t) {scope : RecoveryScope} {request : ClaimRequest}
    {locked : List OperationId} {attemptId : AttemptId} {lease : RecoveryLease}
    (claimed : s.exec now (.claimRecovery scope request locked attemptId) =
      .ok (.lease (some lease), t))
    (h : startOperation t lease = some worker) : Attached t worker := by
  simp only [startOperation,Option.bind_eq_bind,Option.bind_eq_some_iff,Option.pure_def,
    Option.some.injEq] at h
  obtain ⟨context,loaded,kind,_,_,shape,workspace,bound,resume,decoded,rfl⟩ := h
  obtain ⟨task,stage⟩ := validateJobShape_ok (toOption_some shape)
  obtain ⟨job,operation,claim⟩ :=
    claimContext sound.wellFormed sound'.wellFormed extended.persists claimed loaded task
  obtain ⟨hw,owner⟩ := claim.workspace workspace bound
  obtain ⟨resume',decoded',identified,current⟩ :=
    claim_identified sound trail claim stage bound
  have same := toOption_some decoded
  rw [decoded'] at same
  cases same
  refine ⟨claim.serves,claim.fence,stage,?_,?_,current,nofun,nofun⟩
  · refine Checkout.mono extended ?_
    refine mem_map.mpr ⟨workspace,hw,?_⟩
    simp only [WorkspaceRow.worktree,owner,claim.selected.job]
  · intro checkpoint hit
    obtain ⟨record,resumes,recorded⟩ := identified.decoded checkpoint hit
    obtain ⟨source,found,thread,turn⟩ := selected_correlation trail claim resumes recorded
    exact ⟨record,source,recorded,found,thread,turn⟩

namespace Consistent

variable {d : Deployment} {index : Nat}

theorem claim (h : Consistent d) (scope : RecoveryScope) (request : ClaimRequest)
    (locked : List OperationId) (attemptId : AttemptId) (admitted : Bool) :
    Consistent (d.claim elapsed (.claimRecovery scope request locked attemptId) admitted) := by
  have lawful : Lawful d.sys.store (.claimRecovery scope request locked attemptId) :=
    lawful_silent rfl rfl rfl
  obtain ⟨sound,trail,extended⟩ := h.advance elapsed lawful
  refine ⟨sound,trail,?_⟩
  intro worker hit
  have kept : ∀ old ∈ d.workers,
      Attached (d.sys.step ⟨elapsed,.claimRecovery scope request locked attemptId⟩).store old :=
    fun old member => (h.workers old member).mono extended
  simp only [Deployment.claim] at hit ⊢
  split at hit
  · next lease store outcome =>
      rcases mem_append.mp hit with old | new
      · exact kept worker old
      · split at new
        · rw [Option.mem_toList] at new
          rw [stepped_store outcome] at sound extended ⊢
          exact startOperation_attached h.sound sound h.trail extended outcome new
        · cases new
  · exact kept worker hit

theorem reattach (h : Consistent d) (present : d.workers[index]? = some worker)
    {correlation : Correlation} (attached : worker.reattachment = some (checkpoint, correlation)) :
    Consistent (d.perform elapsed
      (.appendCorrelation worker.context.lease.fence correlation correlationId) index
      ({ · with held := some (checkpoint, correlationId) })) := by
  refine h.perform (lawful_silent rfl rfl rfl) ?_
  intro response store outcome found same there
  rw [present] at same
  cases same
  have usable := reattachment_some there attached
  refine there.hold ?_
  rintro _ _ ⟨⟩
  exact ⟨usable.stage,usable.valid,usable.range,
    appended_names outcome usable.thread usable.turn⟩

theorem startTurn (h : Consistent d) (present : d.workers[index]? = some worker)
    (requestId : RequestId) (lineage : StageLineage) :
    Consistent (d.perform elapsed
      (.appendCorrelation worker.context.lease.fence
        (durableCorrelation worker.context requestId (some lineage.activeThreadId)
          (some lineage.turnId)) correlationId) index
      ({ · with turn := some (lineage, correlationId) })) := by
  refine h.perform (lawful_silent rfl rfl rfl) ?_
  intro response store outcome found same there
  rw [present] at same
  cases same
  exact there.begin (appended_names outcome rfl rfl)

theorem write (h : Consistent d) (present : d.workers[index]? = some worker) {completed : Bool}
    {role : StageTurnRole} {cycle : Nat} {baselines : FactoryStateBaselines}
    {encoded : OperationCheckpoint} {checkpointId : CheckpointId}
    (range : inRange cycle baselines)
    (record : worker.record completed role cycle baselines = some (checkpoint, encoded)) :
    Consistent (d.perform elapsed
      (.saveCheckpoint worker.context.lease.fence (encoded.intoNew worker.context.lease.fence)
        checkpointId) index
      (fun worker =>
        { worker with
          held := if completed then encoded.correlationId.map (checkpoint, ·)
            else worker.held })) := by
  have attached := h.workers worker (mem_of_getElem? present)
  obtain ⟨correlationId,held,encodes⟩ := record_held attached range record
  refine h.perform ⟨?_,nofun,nofun⟩ ?_
  · rintro _ _ ⟨⟩ jobId ordinal serves id sequence
    exact ⟨checkpoint,
      encoded_filed h.sound.wellFormed attached held serves encodes id sequence⟩
  · intro response store outcome found same there
    rw [present] at same
    cases same
    obtain ⟨_,rfl⟩ := encode_ok encodes
    obtain ⟨later,heldLater,encodesLater⟩ := record_held there range record
    obtain ⟨_,sameId⟩ := encode_ok encodesLater
    simp only [OperationCheckpoint.mk.injEq,Option.some.injEq,true_and] at sameId
    subst sameId
    refine there.hold ?_
    intro held correlation hit
    split at hit
    · cases hit
      exact heldLater
    · exact there.held held correlation hit

theorem complete (h : Consistent d) {event : Option NewAttemptEvent} {checkpointId : CheckpointId}
    {command : Command} (completion : d.completion index event checkpointId = some command) :
    Consistent (d.perform elapsed command index id) := by
  simp only [Deployment.completion,Option.bind_eq_bind,Option.bind_eq_some_iff,Option.pure_def,
    Option.some.injEq] at completion
  obtain ⟨worker,present,encoded,final,rfl⟩ := completion
  have attached := h.workers worker (mem_of_getElem? present)
  obtain ⟨checkpoint,correlationId,held,completed,encodes⟩ := final_held attached final
  refine h.perform ⟨?_,?_,nofun⟩ fun _ _ _ _ _ there => there
  · rintro _ _ ⟨⟩ jobId ordinal serves id sequence
    exact ⟨checkpoint,
      encoded_filed h.sound.wellFormed attached held serves encodes id sequence⟩
  · rintro _ ⟨⟩ jobId ordinal serves
    refine ⟨_,rfl,?_⟩
    intro id sequence
    have filed := encoded_filed h.sound.wellFormed attached held serves encodes id sequence
    exact ⟨checkpoint,filed.decoded,completed⟩

theorem step (h : Consistent d) (move : RuntimeStep) : Consistent (d.step move) := by
  cases move with
  | command call =>
    simp only [Deployment.step]
    split
    · next allowed => exact h.quiet_step call.elapsed (lawful_permitted allowed)
    · exact h
  | claim elapsed scope request locked attemptId admitted =>
    exact h.claim scope request locked attemptId admitted
  | reattach index elapsed correlationId =>
    simp only [Deployment.step]
    split
    · exact h
    · next worker present =>
        split
        · exact h
        · next attached => exact h.reattach present attached
  | startTurn index elapsed requestId lineage correlationId =>
    simp only [Deployment.step]
    split
    · exact h
    · next worker present => exact h.startTurn present requestId lineage
  | write index elapsed completed role cycle baselines checkpointId =>
    simp only [Deployment.step]
    split
    · exact h
    · next worker present =>
        split
        · exact h
        · next record =>
            split
            · next range => exact h.write present range record
            · exact h
  | complete index elapsed event checkpointId =>
    simp only [Deployment.step]
    split
    · exact h
    · next completion => exact h.complete completion

end Consistent

theorem empty_trail : Trail Store.empty where
  owned := fun _ hit => absurd hit not_mem_nil
  filed := fun _ hit => absurd hit not_mem_nil
  finished := fun _ hit => absurd hit not_mem_nil
  correlations_unique := nodup_nil
  workspaces_unique := nodup_nil

theorem start_consistent (clock : Timestamp) : Consistent (start clock) :=
  ⟨Store.empty_sound,empty_trail,fun _ hit => absurd hit not_mem_nil⟩

def Identified (d : Deployment) : RuntimeStep → Prop
  | .claim elapsed scope request locked attemptId _ =>
    ∀ lease store, d.outcome elapsed (.claimRecovery scope request locked attemptId) =
        .ok (.lease (some lease), store) →
      ∀ context, loadContext store lease = some context →
      ∀ kind, validateJobShape store context kind = .ok () →
      ∀ workspace, context.workspace = some workspace →
        ∃ resume, ResumePoint.decode context kind workspace.root workspace.revision =
            .ok resume ∧ Identification d.sys.store context kind resume
  | .reattach index _ _ =>
    ∀ worker ∈ d.workers[index]?, ∀ checkpoint ∈ worker.resume.correlationCheckpoint,
      ∃ correlation, checkpointTurnCorrelation worker.context checkpoint = .ok correlation ∧
        correlation.attemptId = worker.context.lease.attempt.attemptId ∧
        correlation.threadId = some checkpoint.activeThreadId ∧
        correlation.turnId = some checkpoint.turnId
  | .complete index elapsed event checkpointId =>
    ∀ command ∈ d.completion index event checkpointId,
      d.outcome elapsed command ≠ .error .checkpointCorrelationMismatch
  | _ => True

theorem Consistent.identified {d : Deployment} (h : Consistent d) (move : RuntimeStep) :
    Identified d move := by
  cases move with
  | claim elapsed scope request locked attemptId admitted =>
    intro lease store outcome context loaded kind shape workspace bound
    have lawful : Lawful d.sys.store (.claimRecovery scope request locked attemptId) :=
      lawful_silent rfl rfl rfl
    obtain ⟨sound,_,extended⟩ := h.advance elapsed lawful
    rw [stepped_store outcome] at sound extended
    obtain ⟨task,stage⟩ := validateJobShape_ok shape
    obtain ⟨job,operation,claim⟩ := claimContext h.sound.wellFormed sound.wellFormed
      extended.persists outcome loaded task
    obtain ⟨resume,decoded,identified,_⟩ :=
      claim_identified h.sound h.trail claim stage bound
    exact ⟨resume,decoded,identified⟩
  | reattach index elapsed correlationId =>
    intro worker present checkpoint hit
    exact checkpointTurnCorrelation_ok (h.workers worker (mem_of_getElem? present)) hit
  | complete index elapsed event checkpointId =>
    intro command completion mismatch
    simp only [Deployment.completion,Option.mem_def,Option.bind_eq_bind,
      Option.bind_eq_some_iff,Option.pure_def,Option.some.injEq] at completion
    obtain ⟨worker,present,encoded,final,rfl⟩ := completion
    have attached := h.workers worker (mem_of_getElem? present)
    obtain ⟨checkpoint,correlationId,held,_,encodes⟩ := final_held attached final
    obtain ⟨_,rfl⟩ := encode_ok encodes
    refine settle_mismatch (map_error.mp mismatch) ?_
    rintro _ ⟨⟩
    obtain ⟨row,hrow,own,attempt,_⟩ := held.names
    exact ⟨row,hrow,own,attempt⟩
  | command | startTurn | write => trivial

theorem resume_identification (clock : Timestamp) (steps : List RuntimeStep) :
    Machine.Along step Identified (start clock) steps := by
  exact @Machine.along_of_invariant _ _ step (start clock)
    (fun _ _ => True) Consistent Identified (fun _ move _ h => h.step move)
    (fun _ move _ h => h.identified move) (start_consistent clock) steps (Machine.along_true steps)

end Runtime
