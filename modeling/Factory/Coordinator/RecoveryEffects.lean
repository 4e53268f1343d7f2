import Factory.Coordinator.Effects

namespace Coordinator

open Result Table Or

variable {now : Timestamp} {s s' : Store} {scope : RecoveryScope} {request : ClaimRequest}
  {locked : List OperationId} {attemptId : AttemptId}

namespace Store

variable {job : JobRow} {operation : OperationRow} {jobId : Option JobId}
  {operationId : Option OperationId} {selection : RecoverySelection} {lease : Option RecoveryLease}

theorem mem_recoveryRows (h : (job, operation) ∈ s.recoveryRows now jobId operationId) :
    job ∈ s.jobs ∧ operation ∈ s.operations ∧ operation.jobId = job.jobId ∧
      s.recoverable now job operation = true := by
  simp only [recoveryRows,List.mem_filter,List.mem_flatMap,List.mem_map,operationsOf,
    decide_eq_true_eq,Prod.mk.injEq] at h
  obtain ⟨⟨j,hj,o,⟨ho,hjob⟩,rfl,rfl⟩,_,_,hrecoverable⟩ := h
  exact ⟨hj,ho,hjob,hrecoverable⟩

theorem recoverySelectionRow_some
    (h : s.recoverySelectionRow now jobId operationId = some (job, operation)) :
    job ∈ s.jobs ∧ operation ∈ s.operations ∧ operation.jobId = job.jobId ∧
      s.recoverable now job operation = true :=
  mem_recoveryRows (List.argmin_mem h)

structure Recoverable (now : Timestamp) (s : Store) (job : JobRow) (operation : OperationRow) :
    Prop where
  job_mem : job ∈ s.jobs
  operation_mem : operation ∈ s.operations
  owned : operation.jobId = job.jobId
  open_job : job.status = .queued ∨ job.status = .running ∨ job.status = .cancelling
  workspace : job.kind ≠ "factory.task" ∨ s.workspaceActive job.jobId = true
  predecessors : ∀ p ∈ s.operations, p.jobId = operation.jobId →
    p.ordinal < operation.ordinal → p.status = .succeeded
  eligible :
    (job.status = .queued ∨ job.status = .running) ∧
        s.attemptsMade operation.operationId < operation.maxAttempts ∧
        (operation.status = .ready ∨ operation.status = .retryWait) ∨
      operation.status = .running ∧
        ∃ a, s.previousAttempt operation.operationId = some a ∧ a.status = .running ∧
          a.leaseExpiresAt ≤ now

theorem recoverable_of_selectionRow
    (h : s.recoverySelectionRow now jobId operationId = some (job, operation)) :
    Recoverable now s job operation := by
  obtain ⟨hjob,hoperation,howned,hrecoverable⟩ := recoverySelectionRow_some h
  simp only [recoverable,decide_eq_true_eq,Option.any_eq_true_iff_get] at hrecoverable
  obtain ⟨hopen,hworkspace,hpredecessors,heligible⟩ := hrecoverable
  refine ⟨hjob,hoperation,howned,hopen,hworkspace,hpredecessors,?_⟩
  rcases heligible with ⟨hactive,hbudget,hready⟩ | ⟨hrunning,hattempt,hlapsed⟩
  · refine inl ⟨hactive,hbudget,?_⟩
    rcases hready with hready | hwait
    · exact inl hready
    · exact inr hwait.1
  · exact inr ⟨hrunning,_,(Option.some_get hattempt).symm,hlapsed⟩

theorem recoverySelection_ok (h : s.recoverySelection job operation = .ok selection) :
    selection.jobId = job.jobId ∧ selection.operationId = operation.operationId ∧
      selection.operationKind = operation.kind ∧
      selection.previousAttemptId =
        (s.previousAttempt operation.operationId).map (·.attemptId) ∧
      (operation.status = .running ∧ selection.cause = .leaseExpired ∧
          selection.nextAttemptNumber = s.attemptsMade operation.operationId ∨
        (operation.status = .ready ∨ operation.status = .retryWait) ∧
          selection.cause ≠ .leaseExpired ∧
          selection.nextAttemptNumber = s.attemptsMade operation.operationId + 1) ∧
      selection.resume = (s.recoveryCheckpoint operation).elim .fresh .fromCheckpoint := by
  simp only [recoverySelection,bind_ok,pure_ok] at h
  obtain ⟨cause,hcause,rfl⟩ := h
  refine ⟨rfl,rfl,rfl,rfl,?_,rfl⟩
  cases hstatus : operation.status with
  | ready =>
    rw [hstatus] at hcause
    obtain rfl := pure_ok.mp hcause
    exact inr ⟨inl rfl,RecoveryCause.noConfusion,rfl⟩
  | retryWait =>
    rw [hstatus] at hcause
    obtain rfl := pure_ok.mp hcause
    exact inr ⟨inr rfl,RecoveryCause.noConfusion,rfl⟩
  | running =>
    rw [hstatus] at hcause
    obtain rfl := pure_ok.mp hcause
    exact inl ⟨rfl,rfl,rfl⟩
  | succeeded | failed | cancelled => rw [hstatus] at hcause; cases hcause

inductive Claimed (now : Timestamp) (request : ClaimRequest) (attemptId : AttemptId)
    (s : Store) (job : JobRow) (operation : OperationRow) (selection : RecoverySelection) :
    AttemptRow → Store → Prop where
  | started (row : AttemptRow)
      (status : operation.status = .ready ∨ operation.status = .retryWait)
      (fresh : ∀ a ∈ s.attempts, a.attemptId ≠ attemptId)
      (row_eq : row = ⟨attemptId, operation.operationId,
        s.attemptsMade operation.operationId + 1, .running, request.ownerInstanceId, 1,
        now + request.leaseSeconds * microsPerSecond, selection.cause,
        selection.resume.ids.1, selection.resume.ids.2, none⟩) :
      Claimed now request attemptId s job operation selection row
        ({ s.startJob job.jobId with attempts := s.attempts ++ [row] }.setOperationStatus
          operation.operationId .running)
  | reclaimed (latest previous : AttemptRow)
      (status : operation.status = .running)
      (latest_eq : s.previousAttempt operation.operationId = some latest)
      (found : s.attempts.find? (AttemptRow.lapsed now latest.attemptId) = some previous) :
      Claimed now request attemptId s job operation selection
        (previous.reclaim now request selection.resume.ids)
        ({ s.startJob job.jobId with
          attempts := updateWhere (AttemptRow.lapsed now latest.attemptId)
            (AttemptRow.reclaim now request selection.resume.ids)
            s.attempts }.setOperationStatus operation.operationId .running)

theorem claimSelection_ok (hselection : s.recoverySelection job operation = .ok selection)
    (h : s.claimSelection now request attemptId selection = .ok (lease, s')) :
    lease = none ∧ s' = s ∨
      ∃ row, lease = some ⟨selection, row, row.fence⟩ ∧
        Claimed now request attemptId s job operation selection row s' := by
  obtain ⟨hjobId,hoperationId,_,hprevious,hcause,_⟩ := recoverySelection_ok hselection
  unfold claimSelection at h
  split at h
  · simp only [bind_ok] at h
    obtain ⟨⟨attempt,claimed⟩,hclaim,h⟩ := h
    rcases hcause with ⟨hstatus,hcause,_⟩ | ⟨hstatus,hcause,hnumber⟩
    · rw [claimAttempt,if_pos hcause] at hclaim
      simp only [takeOver,bind_ok,okOr_ok] at hclaim
      obtain ⟨previousId,hid,hclaim⟩ := hclaim
      rw [hprevious,Option.map_eq_some_iff] at hid
      obtain ⟨latest,hlatest,rfl⟩ := hid
      split at hclaim
      next =>
        obtain ⟨rfl,_⟩ := Prod.mk.inj (pure_ok.mp hclaim)
        obtain ⟨rfl,rfl⟩ := Prod.mk.inj (pure_ok.mp h)
        exact inl ⟨rfl,rfl⟩
      next previous hfound =>
        simp only [bind_ok,ensure_ok] at hclaim
        obtain ⟨_,_,hclaim⟩ := hclaim
        obtain ⟨rfl,rfl⟩ := Prod.mk.inj (pure_ok.mp hclaim)
        obtain ⟨rfl,rfl⟩ := Prod.mk.inj (pure_ok.mp h)
        refine inr ⟨_,rfl,?_⟩
        rw [hjobId,hoperationId]
        exact .reclaimed latest previous hstatus hlatest hfound
    · rw [claimAttempt,if_neg hcause] at hclaim
      simp only [startAttempt,bind_ok,ensure_ok] at hclaim
      obtain ⟨_,_,s1,hinsert,hclaim⟩ := hclaim
      obtain ⟨hfresh,rfl⟩ := insertAttempt_ok hinsert
      obtain ⟨rfl,rfl⟩ := Prod.mk.inj (pure_ok.mp hclaim)
      obtain ⟨rfl,rfl⟩ := Prod.mk.inj (pure_ok.mp h)
      refine inr ⟨_,rfl,?_⟩
      rw [hjobId,hoperationId,hnumber]
      exact .started _ hstatus hfresh rfl
  · obtain ⟨rfl,rfl⟩ := Prod.mk.inj (pure_ok.mp h)
    exact inl ⟨rfl,rfl⟩

theorem claimRecovery_ok
    (h : s.claimRecovery now scope request locked attemptId = .ok (lease, s')) :
    lease = none ∧ s' = s ∨
      ∃ job operation selection row,
        Recoverable now s job operation ∧
        s.recoverySelection job operation = .ok selection ∧
        lease = some ⟨selection, row, row.fence⟩ ∧
        Claimed now request attemptId s job operation selection row s' := by
  simp only [claimRecovery,bind_ok,ensure_ok] at h
  obtain ⟨_,_,h⟩ := h
  split at h
  next =>
    obtain ⟨rfl,rfl⟩ := Prod.mk.inj (pure_ok.mp h)
    exact inl ⟨rfl,rfl⟩
  next candidate _ =>
    split at h
    next =>
      obtain ⟨rfl,rfl⟩ := Prod.mk.inj (pure_ok.mp h)
      exact inl ⟨rfl,rfl⟩
    next job operation hrow =>
      simp only [bind_ok] at h
      obtain ⟨selection,hselection,hclaim⟩ := h
      rcases claimSelection_ok hselection hclaim with hnone | ⟨row,hlease,hclaimed⟩
      · exact inl hnone
      · exact inr ⟨job,operation,selection,row,recoverable_of_selectionRow hrow,
          hselection,hlease,hclaimed⟩

end Store

end Coordinator
