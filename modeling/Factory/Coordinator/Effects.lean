import Factory.Coordinator.Commands

namespace Coordinator

open Result Table AttemptRow

variable {now : Timestamp} {fence : AttemptFence} {s s' : Store}

theorem databaseLeaseEpoch_ok {epoch n : Nat} :
    databaseLeaseEpoch epoch = .ok n ↔ epoch ≤ i64Max ∧ epoch = n := by
  simp only [databaseLeaseEpoch,bind_ok,ensure_ok,pure_ok,exists_const]

theorem databaseSequence_ok {sequence n : Nat} {field : String} :
    databaseSequence sequence field = .ok n ↔ sequence ≤ i64Max ∧ sequence = n := by
  simp only [databaseSequence,bind_ok,ensure_ok,pure_ok,exists_const]

theorem AttemptRow.holds_iff {a : AttemptRow} :
    a.holds now fence = true ↔ a.fence = fence ∧ a.status = .running ∧ now < a.leaseExpiresAt := by
  obtain ⟨attemptId,ownerInstanceId,leaseEpoch⟩ := fence
  simp only [holds,fence,AttemptFence.mk.injEq,decide_eq_true_eq]
  tauto

theorem AttemptRow.lapsed_iff {a : AttemptRow} {attemptId : AttemptId} :
    a.lapsed now attemptId = true ↔
      a.attemptId = attemptId ∧ a.status = .running ∧ a.leaseExpiresAt ≤ now := by
  simp only [lapsed,decide_eq_true_eq]

namespace Store

variable {context : AttemptContextRow} {checkpointId : CheckpointId} {checkpoint : NewCheckpoint}
  {row : JobEventRow} {event : NewAttemptEvent} {jobId : JobId} {newId : Nat → OperationId}
  {definition : JobDefinition} {record : Option CheckpointRecord}

theorem attemptContext_some :
    s.attemptContext now fence = some context ↔
      ∃ a o j, s.attempts.find? (holds now fence) = some a ∧
        s.findOperation a.operationId = some o ∧ s.findJob o.jobId = some j ∧
        context = ⟨a.operationId, o.jobId, j.status, a.attemptNumber, o.maxAttempts⟩ := by
  simp only [attemptContext,Option.bind_eq_bind,Option.bind_eq_some_iff,Option.pure_def,
    Option.some.injEq]
  constructor
  · rintro ⟨a,ha,o,ho,j,hj,rfl⟩
    exact ⟨a,o,j,ha,ho,hj,rfl⟩
  · rintro ⟨a,o,j,ha,ho,hj,rfl⟩
    exact ⟨a,ha,o,ho,j,hj,rfl⟩

theorem lockAttemptContext_ok :
    s.lockAttemptContext now fence = .ok context ↔
      fence.leaseEpoch ≤ i64Max ∧ s.attemptContext now fence = some context := by
  simp only [lockAttemptContext,bind_ok,databaseLeaseEpoch_ok,okOr_ok]
  constructor
  · rintro ⟨_,⟨hepoch,_⟩,h⟩
    exact ⟨hepoch,h⟩
  · rintro ⟨hepoch,h⟩
    exact ⟨_,⟨hepoch,rfl⟩,h⟩

theorem renewAttempt_ok {leaseSeconds : Nat} (h : s.renewAttempt now fence leaseSeconds = .ok s') :
    (∃ a, s.attempts.find? (holds now fence) = some a) ∧
      s' = { s with
        attempts := updateWhere (holds now fence)
          ({ · with leaseExpiresAt := now + leaseSeconds * microsPerSecond }) s.attempts } := by
  simp only [renewAttempt,bind_ok,ensure_ok,okOr_ok,pure_ok] at h
  obtain ⟨_,_,_,_,a,ha,rfl⟩ := h
  exact ⟨⟨a,ha⟩,rfl⟩

theorem relinquishAttempt_ok (h : s.relinquishAttempt now fence = .ok s') :
    (∃ a, s.attempts.find? (holds now fence) = some a) ∧
      s' = { s with
        attempts := updateWhere (holds now fence)
          ({ · with leaseExpiresAt := now }) s.attempts } := by
  simp only [relinquishAttempt,bind_ok,okOr_ok,pure_ok] at h
  obtain ⟨_,_,a,ha,rfl⟩ := h
  exact ⟨⟨a,ha⟩,rfl⟩

theorem appendCorrelation_ok {correlation : Correlation} {correlationId : CorrelationRecordId}
    {row : DurableCorrelationRecord}
    (h : s.appendCorrelation now fence correlation correlationId = .ok (row, s')) :
    correlation.attemptId = fence.attemptId ∧
      (∃ context, s.attemptContext now fence = some context) ∧
      s.correlationMatches correlation = true ∧
      (∀ c ∈ s.correlations, c.correlationId ≠ correlationId) ∧
      row = ⟨correlationId, correlation⟩ ∧
      s' = { s with correlations := s.correlations ++ [row] } := by
  simp only [appendCorrelation,bind_ok,ensure_ok,lockAttemptContext_ok,pure_ok,
    Prod.mk.injEq] at h
  obtain ⟨_,hattempt,context,⟨_,hcontext⟩,_,hmatch,_,hfresh,rfl,rfl⟩ := h
  exact ⟨hattempt,⟨context,hcontext⟩,hmatch,hfresh,rfl,rfl⟩

theorem insertCheckpoint_ok {row : CheckpointRecord}
    (h : s.insertCheckpoint checkpoint checkpointId = .ok (row, s')) :
    (∀ correlationId ∈ checkpoint.correlationId,
      ∃ c ∈ s.correlations, c.correlationId = correlationId ∧
        c.correlation.attemptId = checkpoint.attemptId) ∧
      (∀ c ∈ s.checkpoints, c.checkpointId ≠ checkpointId) ∧
      row = ⟨checkpointId, checkpoint.attemptId, s.nextCheckpointSequence checkpoint.attemptId,
        checkpoint.kind, checkpoint.payload, checkpoint.workspaceRoot,
        checkpoint.workspaceRevision, checkpoint.correlationId⟩ ∧
      s' = { s with checkpoints := s.checkpoints ++ [row] } := by
  simp only [insertCheckpoint,bind_ok,ensure_ok,pure_ok,Prod.mk.injEq] at h
  obtain ⟨_,hcorrelation,_,hfresh,rfl,rfl⟩ := h
  exact ⟨hcorrelation,hfresh,rfl,rfl⟩

theorem validateCheckpoint_ok {u : Unit} (h : validateCheckpoint fence checkpoint = .ok u) :
    checkpoint.attemptId = fence.attemptId := by
  simp only [validateCheckpoint,bind_ok,ensure_ok] at h
  obtain ⟨_,hattempt,_⟩ := h
  exact hattempt

theorem saveCheckpoint_ok {row : CheckpointRecord}
    (h : s.saveCheckpoint now fence checkpoint checkpointId = .ok (row, s')) :
    checkpoint.attemptId = fence.attemptId ∧
      (∃ context, s.attemptContext now fence = some context) ∧
      s.insertCheckpoint checkpoint checkpointId = .ok (row, s') := by
  simp only [saveCheckpoint,bind_ok,lockAttemptContext_ok] at h
  obtain ⟨_,hvalid,context,⟨_,hcontext⟩,hinsert⟩ := h
  exact ⟨validateCheckpoint_ok hvalid,⟨context,hcontext⟩,hinsert⟩

theorem putThreadState_ok {threadId : ThreadId} {state : Json.Value}
    (h : s.putThreadState now fence threadId state = .ok s') :
    (∃ context, s.attemptContext now fence = some context) ∧
      s' = s.upsertThreadState threadId state := by
  simp only [putThreadState,bind_ok,lockAttemptContext_ok,ensure_ok,pure_ok] at h
  obtain ⟨context,⟨_,hcontext⟩,_,_,rfl⟩ := h
  exact ⟨⟨context,hcontext⟩,rfl⟩

theorem appendAttemptEvent_ok (h : s.appendAttemptEvent now fence event = .ok (row, s')) :
    ∃ context, s.attemptContext now fence = some context ∧
      s.insertAttemptEvent context fence event = .ok (row, s') := by
  simp only [appendAttemptEvent,bind_ok,lockAttemptContext_ok] at h
  obtain ⟨context,⟨_,hcontext⟩,hinsert⟩ := h
  exact ⟨context,hcontext,hinsert⟩

theorem insertAttemptEvent_ok (h : s.insertAttemptEvent context fence event = .ok (row, s')) :
    ∃ events nextSequence, s' = { s with events := events, nextSequence := nextSequence } := by
  simp only [insertAttemptEvent,bind_ok] at h
  obtain ⟨_,_,_,_,h⟩ := h
  split at h
  · simp only [pure_ok,pushEvent,Prod.mk.injEq] at h
    exact ⟨_,_,h.2.symm⟩
  · simp only [bind_ok,pure_ok,Prod.mk.injEq] at h
    obtain ⟨_,_,_,rfl⟩ := h
    exact ⟨_,_,rfl⟩

theorem appendJobEvent_ok {event : NewJobEvent} (h : s.appendJobEvent event = .ok (row, s')) :
    ∃ events nextSequence, s' = { s with events := events, nextSequence := nextSequence } := by
  simp only [appendJobEvent,bind_ok,pure_ok,pushEvent,Prod.mk.injEq] at h
  obtain ⟨_,_,_,_,_,rfl⟩ := h
  exact ⟨_,_,rfl⟩

theorem insertJob_ok {row : JobRow} (h : s.insertJob row = .ok s') :
    (∀ j ∈ s.jobs, j.jobId ≠ row.jobId) ∧ s' = { s with jobs := s.jobs ++ [row] } := by
  simp only [insertJob,bind_ok,ensure_ok,pure_ok] at h
  obtain ⟨_,hfresh,rfl⟩ := h
  exact ⟨hfresh,rfl⟩

theorem insertOperation_ok {row : OperationRow} (h : s.insertOperation row = .ok s') :
    (∀ o ∈ s.operations, o.operationId ≠ row.operationId) ∧
      s' = { s with operations := s.operations ++ [row] } := by
  simp only [insertOperation,bind_ok,ensure_ok,pure_ok] at h
  obtain ⟨_,hfresh,_,_,rfl⟩ := h
  exact ⟨hfresh,rfl⟩

theorem insertAttempt_ok {row : AttemptRow} (h : s.insertAttempt row = .ok s') :
    (∀ a ∈ s.attempts, a.attemptId ≠ row.attemptId) ∧
      s' = { s with attempts := s.attempts ++ [row] } := by
  simp only [insertAttempt,bind_ok,ensure_ok,pure_ok] at h
  obtain ⟨_,hfresh,_,_,rfl⟩ := h
  exact ⟨hfresh,rfl⟩

def operationRows (now : Timestamp) (jobId : JobId) (newId : Nat → OperationId) :
    List OperationDefinition → Nat → List OperationRow
  | [], _ => []
  | operation :: rest, ordinal =>
    ⟨newId ordinal, jobId, ordinal, operation.kind, operation.input, .ready,
      operation.maxAttempts, now⟩ :: operationRows now jobId newId rest (ordinal + 1)

theorem insertOperations_ok {outOfRange : CoordinatorError} {operations : List OperationDefinition}
    {ordinal : Nat}
    (h : s.insertOperations now jobId newId outOfRange operations ordinal = .ok s') :
    s' = { s with
        operations := s.operations ++ operationRows now jobId newId operations ordinal } ∧
      ((s.operations.map (·.operationId)).Nodup → (s'.operations.map (·.operationId)).Nodup) := by
  induction operations generalizing s ordinal with
  | nil =>
    simp only [insertOperations,pure_ok] at h
    subst h
    exact ⟨by simp only [operationRows,List.append_nil],id⟩
  | cons operation rest ih =>
    simp only [insertOperations,bind_ok,ensure_ok] at h
    obtain ⟨_,_,_,_,s1,hinsert,hrest⟩ := h
    obtain ⟨hfresh,rfl⟩ := insertOperation_ok hinsert
    obtain ⟨rfl,hnodup⟩ := ih hrest
    refine ⟨by simp only [operationRows,List.append_assoc,List.singleton_append],?_⟩
    intro hs
    apply hnodup
    exact nodup_concat hs hfresh

theorem validateJobDefinition_ok {u : Unit} (h : validateJobDefinition definition = .ok u) :
    definition.operations ≠ [] ∧ ∀ o ∈ definition.operations, o.maxAttempts ≠ 0 := by
  simp only [validateJobDefinition,bind_ok,ensure_ok] at h
  obtain ⟨_,_,_,hne,hall⟩ := h
  refine ⟨hne,?_⟩
  intro o ho
  have hvalid := forM_ok hall o ho
  simp only [validateOperationDefinition,bind_ok,ensure_ok] at hvalid
  obtain ⟨_,_,_,hpos,_⟩ := hvalid
  exact hpos

theorem createJob_ok (h : s.createJob now definition jobId newId = .ok s') :
    definition.operations ≠ [] ∧ (∀ o ∈ definition.operations, o.maxAttempts ≠ 0) ∧
      (∀ j ∈ s.jobs, j.jobId ≠ jobId) ∧
      ((s.operations.map (·.operationId)).Nodup → (s'.operations.map (·.operationId)).Nodup) ∧
      s' = { s with
        jobs := s.jobs ++ [⟨jobId, definition.kind, definition.input, .queued, now⟩]
        operations := s.operations ++ operationRows now jobId newId definition.operations 0 } := by
  simp only [createJob,bind_ok] at h
  obtain ⟨_,hvalid,s1,hjob,hoperations⟩ := h
  obtain ⟨hne,hpos⟩ := validateJobDefinition_ok hvalid
  obtain ⟨hfresh,rfl⟩ := insertJob_ok hjob
  obtain ⟨rfl,hnodup⟩ := insertOperations_ok hoperations
  exact ⟨hne,hpos,hfresh,hnodup,rfl⟩

theorem reactivateInTransaction_ok (h : s.reactivateInTransaction jobId = .ok s') :
    ((∃ e ∈ s.environments, e.jobId = jobId ∧ e.desiredState = .released ∧
        e.status = .released) ∧
      s' = { s with
        environments := updateWhere (fun e => e.jobId = jobId ∧
          decide (e.desiredState = .released ∧ e.status = .released)) EnvironmentRow.reactivate
          s.environments }) ∨
      ((∀ e ∈ s.environments, e.jobId ≠ jobId) ∧ s' = s) := by
  unfold reactivateInTransaction updateEnvironment at h
  split at h
  next updated s1 hupdate =>
    split at hupdate
    next hnone =>
      obtain ⟨rfl,rfl⟩ := Prod.mk.inj hupdate
      simp only [bind_ok,ensure_ok,pure_ok] at h
      obtain ⟨_,habsent,rfl⟩ := h
      refine Or.inr ⟨?_,rfl⟩
      intro e he hjob
      exact habsent (List.any_eq_true.mpr ⟨e,he,by simpa using hjob⟩)
    next e hsome =>
      obtain ⟨rfl,rfl⟩ := Prod.mk.inj hupdate
      simp only [pure_ok] at h
      have hmem := List.mem_of_find?_eq_some hsome
      have hguard := List.find?_some hsome
      simp only [decide_eq_true_eq] at hguard
      exact Or.inl ⟨⟨e,hmem,hguard⟩,h.symm⟩

theorem continueJob_ok {feedback : String} (h : s.continueJob now jobId feedback newId = .ok s') :
    ∃ job round input environments,
      s.findJob jobId = some job ∧ job.kind = "factory.task" ∧ job.status = .succeeded ∧
      s.workspaceActive jobId = true ∧
      s.reactivateInTransaction jobId = .ok { s with environments := environments } ∧
      continuationRound (s.nextOrdinal jobId) = .ok round ∧
      ((s.operations.map (·.operationId)).Nodup → (s'.operations.map (·.operationId)).Nodup) ∧
      s' = { s with
        environments := environments
        jobs := updateWhere (fun j => j.jobId = jobId)
          ({ · with input := input, status := .queued }) s.jobs
        operations := s.operations ++ operationRows now jobId newId
          (continuationOperations (Text.trim feedback) round) (s.nextOrdinal jobId) } := by
  simp only [continueJob,bind_ok,ensure_ok,okOr_ok] at h
  obtain ⟨_,_,job,hjob,_,hkind,_,hstatus,_,hworkspace,s1,hreactivate,_,_,round,
    hround,task,_,hoperations⟩ := h
  have hs1 : s1 = { s with environments := s1.environments } := by
    rcases reactivateInTransaction_ok hreactivate with ⟨_,rfl⟩ | ⟨_,rfl⟩ <;> rfl
  rw [hs1] at hround hoperations hreactivate
  obtain ⟨rfl,hnodup⟩ := insertOperations_ok hoperations
  exact ⟨job,round,_,s1.environments,hjob,hkind,hstatus,hworkspace,hreactivate,hround,
    hnodup,rfl⟩

theorem cancelJob_ok (h : s.cancelJob jobId = .ok s') :
    ∃ job, s.findJob jobId = some job ∧
      ((job.status = .cancelled ∨ job.status = .cancelling) ∧ s' = s ∨
        (job.status = .queued ∨ job.status = .running) ∧ s.hasRunningAttempt jobId = true ∧
          s' = s.setJobStatus jobId .cancelling ∨
        (job.status = .queued ∨ job.status = .running) ∧ s.hasRunningAttempt jobId = false ∧
          s' = ((s.cancelUnfinishedOperations jobId).setJobStatus jobId
            .cancelled).requestReleaseInTransaction jobId) := by
  simp only [cancelJob,bind_ok,okOr_ok] at h
  obtain ⟨job,hjob,h⟩ := h
  refine ⟨job,hjob,?_⟩
  split at h
  next hstatus => exact Or.inl ⟨Or.inl hstatus,(pure_ok.mp h).symm⟩
  next hstatus => exact Or.inl ⟨Or.inr hstatus,(pure_ok.mp h).symm⟩
  next hstatus =>
    right
    split at h
    next hrunning => exact Or.inl ⟨Or.inl hstatus,hrunning,(pure_ok.mp h).symm⟩
    next hrunning =>
      exact Or.inr ⟨Or.inl hstatus,Bool.eq_false_iff.mpr hrunning,(pure_ok.mp h).symm⟩
  next hstatus =>
    right
    split at h
    next hrunning => exact Or.inl ⟨Or.inr hstatus,hrunning,(pure_ok.mp h).symm⟩
    next hrunning =>
      exact Or.inr ⟨Or.inr hstatus,Bool.eq_false_iff.mpr hrunning,(pure_ok.mp h).symm⟩
  next => cases h
  next => cases h

theorem acknowledgeJobCancellation_ok (h : s.acknowledgeJobCancellation now fence = .ok s') :
    ∃ context, s.attemptContext now fence = some context ∧ context.jobStatus = .cancelling ∧
      (∀ e ∈ s.findEnvironment context.jobId, e.status = .released) ∧
      s' = ((s.setAttempt fence.attemptId
        ({ · with status := .abandoned, failure := some jobCancelledFailure
          })).cancelUnfinishedOperations context.jobId).setJobStatus context.jobId .cancelled := by
  simp only [acknowledgeJobCancellation,bind_ok,lockAttemptContext_ok,ensure_ok,pure_ok] at h
  obtain ⟨context,⟨_,hcontext⟩,_,hstatus,_,henvironment,rfl⟩ := h
  exact ⟨context,hcontext,hstatus,henvironment,rfl⟩

theorem putWorkspace_ok {binding : WorkspaceBinding} (h : s.putWorkspace binding = .ok s') :
    ∃ workspaces, s' = { s with workspaces := workspaces } := by
  simp only [putWorkspace,bind_ok] at h
  obtain ⟨_,_,_,_,h⟩ := h
  split at h
  · exact ⟨_,(pure_ok.mp h).symm⟩
  · exact ⟨_,(pure_ok.mp h).symm⟩

theorem markWorkspaceRemoved_ok (h : s.markWorkspaceRemoved jobId = .ok s') :
    ∃ workspaces, s' = { s with workspaces := workspaces } := by
  simp only [markWorkspaceRemoved,bind_ok,pure_ok] at h
  obtain ⟨_,_,rfl⟩ := h
  exact ⟨_,rfl⟩

theorem insertOptionalCheckpoint_ok {checkpoint : Option NewCheckpoint}
    (h : s.insertOptionalCheckpoint checkpoint checkpointId = .ok (record, s')) :
    checkpoint = none ∧ record = none ∧ s' = s ∨
      ∃ new row, checkpoint = some new ∧ record = some row ∧
        s.insertCheckpoint new checkpointId = .ok (row, s') := by
  cases checkpoint with
  | none =>
    simp only [insertOptionalCheckpoint,pure_ok,Prod.mk.injEq] at h
    exact Or.inl ⟨rfl,h.1.symm,h.2.symm⟩
  | some new =>
    simp only [insertOptionalCheckpoint,bind_ok,pure_ok,Prod.mk.injEq] at h
    obtain ⟨⟨row,s1⟩,hinsert,rfl,rfl⟩ := h
    exact Or.inr ⟨new,row,rfl,rfl,hinsert⟩

theorem insertOptionalEvent_ok {event : Option NewAttemptEvent}
    (h : s.insertOptionalEvent context fence event = .ok s') :
    ∃ events nextSequence, s' = { s with events := events, nextSequence := nextSequence } := by
  cases event with
  | none =>
    simp only [insertOptionalEvent,pure_ok] at h
    exact ⟨s.events,s.nextSequence,h.symm⟩
  | some event =>
    simp only [insertOptionalEvent,bind_ok,pure_ok] at h
    obtain ⟨⟨row,s1⟩,hinsert,rfl⟩ := h
    exact insertAttemptEvent_ok hinsert

theorem settleAttemptWithEvent_ok {settlement : AttemptSettlement}
    {checkpoint : Option NewCheckpoint} {completionEvent : Option NewAttemptEvent}
    (h : s.settleAttemptWithEvent now fence settlement checkpoint completionEvent checkpointId =
      .ok (record, s')) :
    ∃ context s1 events nextSequence,
      (∀ new ∈ checkpoint, new.attemptId = fence.attemptId) ∧
      s.attemptContext now fence = some context ∧ context.jobStatus ≠ .cancelling ∧
      s.insertOptionalCheckpoint checkpoint checkpointId = .ok (record, s1) ∧
      s' = { s1.settle fence context settlement with
        events := events, nextSequence := nextSequence } := by
  simp only [settleAttemptWithEvent,bind_ok,lockAttemptContext_ok,ensure_ok,pure_ok] at h
  obtain ⟨_,hvalid,_,_,context,⟨_,hcontext⟩,_,hstatus,⟨record',s1⟩,hcheckpoint,s2,
    hevent,heq⟩ := h
  obtain ⟨rfl,rfl⟩ := Prod.mk.inj heq
  obtain ⟨events,nextSequence,rfl⟩ := insertOptionalEvent_ok hevent
  refine ⟨context,s1,events,nextSequence,?_,hcontext,hstatus,hcheckpoint,rfl⟩
  intro new hnew
  obtain rfl := Option.mem_def.mp hnew
  exact validateCheckpoint_ok hvalid

end Store

end Coordinator
