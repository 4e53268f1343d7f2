import Factory.Coordinator.JobLifecycle
import Factory.Coordinator.Recording

namespace Coordinator

open Result Table List

namespace Store

variable {now : Timestamp} {s t : Store} {command : Command} {response : Response}
  {job : JobRow} {a : AttemptRow}

def Housed (s : Store) : Prop :=
  ∀ job ∈ s.jobs, job.kind = "factory.task" → s.runningAttempts job.jobId ≠ [] →
    s.workspaceActive job.jobId = true

theorem empty_housed : Store.empty.Housed := by
  intro job hjob
  exact absurd hjob not_mem_nil

theorem running_kept {rows rows' : List AttemptRow} (h : AttemptsStep now rows [] rows')
    (ha : a ∈ rows') (running : a.status = .running) :
    ∃ b ∈ rows, b.status = .running ∧ b.key = a.key := by
  cases h with
  | kept g keeps =>
    obtain ⟨b,hb,rfl⟩ := mem_map.mp ha
    refine ⟨b,hb,?_,(keeps b hb).key.symm⟩
    by_contra settled
    exact (keeps b hb).settled settled running

theorem running_claimed {request : ClaimRequest} {attemptId : AttemptId} {operation : OperationRow}
    {selection : RecoverySelection} {row : AttemptRow}
    (claim : Claimed now request attemptId s job operation selection row t)
    (ha : a ∈ t.attempts) (running : a.status = .running) :
    (∃ b ∈ s.attempts, b.status = .running ∧ b.key = a.key) ∨
      a.operationId = operation.operationId := by
  cases claim with
  | started _ _ _ row_eq =>
    rcases mem_append.mp ha with old | new
    · exact .inl ⟨a,old,running,rfl⟩
    · rw [mem_singleton.mp new,row_eq]
      exact .inr rfl
  | reclaimed latest previous _ _ _ =>
    obtain ⟨b,hb,rfl⟩ := mem_updateWhere.mp ha
    split at running
    · next lapsed =>
        rw [if_pos lapsed]
        exact .inl ⟨b,hb,(AttemptRow.lapsed_iff.mp lapsed).2.1,rfl⟩
    · next current =>
        rw [if_neg current]
        exact .inl ⟨b,hb,running,rfl⟩

theorem exec_running (h : s.exec now command = .ok (response, t)) (ha : a ∈ t.attempts)
    (running : a.status = .running) :
    (∃ b ∈ s.attempts, b.status = .running ∧ b.key = a.key) ∨
      ∃ job operation, Recoverable now s job operation ∧
        a.operationId = operation.operationId := by
  obtain ⟨middle,transition,_,_,attempts,_⟩ := exec_transition h
  rw [attempts] at ha
  have step := transition.attempts
  generalize response.fences = fences at transition step
  generalize command.continues = continued at transition
  cases transition
  case claimed request attemptId job operation selection row recoverable selected claim =>
    rcases running_claimed claim ha running with old | new
    · exact .inl old
    · exact .inr ⟨job,operation,recoverable,new⟩
  all_goals exact .inl (running_kept step ha running)

theorem owner_identity (wf : t.WellFormed) (persists : Persists s t) {o p : OperationRow}
    {j : JobRow} (hp : p ∈ s.operations) (hj : j ∈ s.jobs) (owner : p.jobId = j.jobId)
    (hjob : job ∈ t.jobs) (ho : o ∈ t.operationsOf job.jobId)
    (same : o.operationId = p.operationId) : job.identity = j.identity := by
  obtain ⟨member,owned⟩ := mem_operationsOf.mp ho
  obtain ⟨q,hq,key⟩ := persists.operations p hp
  obtain ⟨qId,qJob,_⟩ : q.operationId = p.operationId ∧ q.jobId = p.jobId ∧
      q.ordinal = p.ordinal := by
    simpa only [OperationRow.key,Prod.mk.injEq] using key
  obtain rfl := wf.operation_eq member hq (same.trans qId.symm)
  obtain ⟨k,hk,identity⟩ := persists.jobs j hj
  have kJob : k.jobId = j.jobId := congrArg Prod.fst identity
  obtain rfl := wf.job_eq hjob hk
    (owned.symm.trans (qJob.trans (owner.trans kJob.symm)))
  exact identity

theorem workspaceActive_congr (same : t.workspaces = s.workspaces) (jobId : JobId) :
    t.workspaceActive jobId = s.workspaceActive jobId := by
  rw [workspaceActive,workspaceActive,same]

theorem Housed.exec (housed : s.Housed) (sound : s.Sound) (sound' : t.Sound)
    (h : s.exec now command = .ok (response, t)) (unmanaged : command.manages = false) :
    t.Housed := by
  intro job hjob task busy
  rw [workspaceActive_congr (exec_workspaces h unmanaged)]
  have persists := exec_persists sound.wellFormed h
  obtain ⟨a,ha⟩ := exists_mem_of_ne_nil _ busy
  obtain ⟨member,running,o,ho,own⟩ := mem_runningAttempts.mp ha
  rcases exec_running h member running with ⟨b,hb,before,key⟩ | ⟨j,p,recoverable,claimed⟩
  · have sameOperation : b.operationId = a.operationId := congrArg (·.2.1) key
    obtain ⟨p,hp,named⟩ := sound.wellFormed.attempt_operation hb
    obtain ⟨j,hj,owner⟩ := sound.wellFormed.operation_job hp
    have identity := owner_identity sound'.wellFormed persists hp hj owner.symm hjob ho
      (own.trans (sameOperation.symm.trans named.symm))
    obtain ⟨sameJob,sameKind⟩ := Prod.mk.inj identity
    rw [sameJob]
    refine housed j hj (sameKind.symm.trans task) (ne_nil_of_mem (a := b) ?_)
    exact mem_runningAttempts.mpr ⟨hb,before,p,mem_operationsOf.mpr ⟨hp,owner.symm⟩,named⟩
  · have identity := owner_identity sound'.wellFormed persists recoverable.operation_mem
      recoverable.job_mem recoverable.owned hjob ho (own.trans claimed)
    obtain ⟨sameJob,sameKind⟩ := Prod.mk.inj identity
    rw [sameJob]
    exact recoverable.workspace.resolve_left (not_not_intro (sameKind.symm.trans task))

theorem putWorkspace_housed {binding : WorkspaceBinding} (housed : s.Housed)
    (put : s.putWorkspace binding = .ok t) : t.Housed := by
  have kept : ∀ jobId, s.workspaceActive jobId = true → t.workspaceActive jobId = true := by
    intro jobId active
    obtain ⟨w,hw,own⟩ := any_eq_true.mp active
    obtain ⟨owner,status⟩ := of_decide_eq_true own
    simp only [putWorkspace,bind_ok] at put
    obtain ⟨_,_,_,_,put⟩ := put
    split at put
    · obtain rfl := pure_ok.mp put
      refine any_eq_true.mpr ⟨_,mem_updateWhere.mpr ⟨w,hw,rfl⟩,decide_eq_true ?_⟩
      split
      · exact ⟨owner,rfl⟩
      · exact ⟨owner,status⟩
    · obtain rfl := pure_ok.mp put
      exact any_eq_true.mpr ⟨w,mem_append_left _ hw,own⟩
  intro job hjob task busy
  obtain ⟨workspaces,rfl⟩ := putWorkspace_ok put
  exact kept job.jobId (housed job hjob task busy)

theorem markWorkspaceRemoved_housed {jobId : JobId} (housed : s.Housed)
    (idle : ∀ job ∈ s.jobs, job.jobId = jobId → job.kind = "factory.task" →
      s.runningAttempts jobId = [])
    (mark : s.markWorkspaceRemoved jobId = .ok t) : t.Housed := by
  intro job hjob task busy
  simp only [markWorkspaceRemoved,bind_ok,pure_ok] at mark
  obtain ⟨_,_,rfl⟩ := mark
  have active := housed job hjob task busy
  obtain ⟨w,hw,own⟩ := any_eq_true.mp active
  obtain ⟨owner,status⟩ := of_decide_eq_true own
  refine any_eq_true.mpr ⟨_,mem_updateWhere.mpr ⟨w,hw,rfl⟩,decide_eq_true ?_⟩
  split
  · next removed =>
      have same : job.jobId = jobId := owner.symm.trans (of_decide_eq_true removed)
      have quiet := idle job hjob same task
      rw [← same] at quiet
      exact absurd quiet busy
  · exact ⟨owner,status⟩

end Store

end Coordinator
