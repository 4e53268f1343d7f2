import Factory.Coordinator.Fencing
import Factory.Coordinator.WellFormed

namespace Coordinator

open Result Table List Or

def JobRow.identity (j : JobRow) : JobId × String := (j.jobId, j.kind)

namespace Store

variable {now : Timestamp} {s t : Store} {command : Command} {response : Response}

structure Grows (s t : Store) : Prop where
  jobs : ∃ added, t.jobs.map (·.identity) = s.jobs.map (·.identity) ++ added
  operations : ∃ added, t.operations.map (·.key) = s.operations.map (·.key) ++ added

theorem grows_same (jobs : t.jobs.map (·.identity) = s.jobs.map (·.identity))
    (operations : t.operations.map (·.key) = s.operations.map (·.key)) : Grows s t :=
  ⟨⟨[],jobs.trans (List.append_nil _).symm⟩,⟨[],operations.trans (List.append_nil _).symm⟩⟩

theorem setJobStatus_identity (jobId : JobId) (status : JobState) (s : Store) :
    (s.setJobStatus jobId status).jobs.map (·.identity) = s.jobs.map (·.identity) :=
  map_updateWhere fun _ _ _ => rfl

theorem startJob_identity (jobId : JobId) (s : Store) :
    (s.startJob jobId).jobs.map (·.identity) = s.jobs.map (·.identity) :=
  map_updateWhere fun _ _ _ => rfl

theorem settle_grows (fence : AttemptFence) (context : AttemptContextRow)
    (settlement : AttemptSettlement) : Grows s (s.settle fence context settlement) := by
  cases settlement with
  | succeeded =>
    simp only [settle,settleSuccess]
    split
    · exact grows_same rfl (map_updateWhere fun _ _ _ => rfl)
    · exact grows_same (setJobStatus_identity _ _ _) (map_updateWhere fun _ _ _ => rfl)
  | failed failure =>
    simp only [settle,settleFailure]
    split
    · exact grows_same rfl (map_updateWhere fun _ _ _ => rfl)
    · exact grows_same (setJobStatus_identity _ _ _) (map_updateWhere fun _ _ _ => rfl)

theorem Transition.grows {continued : Option JobId} {fences : List AttemptFence}
    (h : Transition now s continued fences t) : Grows s t := by
  cases h with
  | idle | leased => exact grows_same rfl rfl
  | environment _ change =>
    obtain ⟨jobs,operations,_⟩ := change.tables
    exact grows_same (by rw [jobs]) (by rw [operations])
  | created _ _ _ _ result =>
    obtain ⟨_,_,_,_,rfl⟩ := createJob_ok result
    exact ⟨⟨_,List.map_append⟩,⟨_,List.map_append⟩⟩
  | continued _ _ _ _ result =>
    obtain ⟨_,_,_,_,_,_,_,_,_,_,_,rfl⟩ := continueJob_ok result
    refine ⟨⟨[],?_⟩,⟨_,List.map_append⟩⟩
    rw [List.append_nil]
    exact map_updateWhere fun _ _ _ => rfl
  | cancelled _ _ result =>
    obtain ⟨_,_,⟨_,rfl⟩ | ⟨_,_,rfl⟩ | ⟨_,_,rfl⟩⟩ := cancelJob_ok result
    · exact grows_same rfl rfl
    · exact grows_same (setJobStatus_identity _ _ _) rfl
    · exact grows_same (setJobStatus_identity _ _ _) (map_updateWhere fun _ _ _ => rfl)
  | acknowledged _ _ result =>
    obtain ⟨_,_,_,_,rfl⟩ := acknowledgeJobCancellation_ok result
    exact grows_same (setJobStatus_identity _ _ _) (map_updateWhere fun _ _ _ => rfl)
  | settled fence context settlement _ _ => exact settle_grows fence context settlement
  | claimed _ _ _ _ _ _ _ _ _ claim =>
    cases claim with
    | started | reclaimed =>
      exact grows_same (startJob_identity _ _) (map_updateWhere fun _ _ _ => rfl)

structure Persists (s t : Store) : Prop where
  jobs : ∀ j ∈ s.jobs, ∃ k ∈ t.jobs, k.identity = j.identity
  operations : ∀ o ∈ s.operations, ∃ p ∈ t.operations, p.key = o.key
  attempts : ∀ a ∈ s.attempts, ∃ b ∈ t.attempts, b.key = a.key

theorem mem_of_grown {α κ : Type} {key : α → κ} {rows grown : List α}
    (h : ∃ added, grown.map key = rows.map key ++ added) {x : α} (hx : x ∈ rows) :
    ∃ y ∈ grown, key y = key x := by
  obtain ⟨added,same⟩ := h
  have hit : key x ∈ grown.map key := by
    rw [same]
    exact List.mem_append_left _ (List.mem_map_of_mem hx)
  exact List.mem_map.mp hit

theorem exec_persists (wf : s.WellFormed) (h : s.exec now command = .ok (response, t)) :
    Persists s t := by
  obtain ⟨middle,transition,jobs,operations,attempts,_⟩ := exec_transition h
  have grown := transition.grows
  refine ⟨fun j hj => ?_,fun o ho => ?_,fun a ha => ?_⟩
  · rw [jobs]
    exact mem_of_grown grown.jobs hj
  · rw [operations]
    exact mem_of_grown grown.operations ho
  · rw [attempts]
    exact mem_of_grown (transition.attempts.keys wf.attempts_unique) ha

end Store

def Command.writes : Command → Option (AttemptFence × NewCheckpoint)
  | .saveCheckpoint fence checkpoint _ => some (fence, checkpoint)
  | .settleAttempt fence _ checkpoint _ _ => checkpoint.map (fence, ·)
  | _ => none

def Command.succeeds : Command → Option AttemptFence
  | .settleAttempt fence .succeeded _ _ _ => some fence
  | _ => none

def Command.binds : Command → Option WorkspaceBinding
  | .putWorkspace binding => some binding
  | _ => none

def Command.files : Command → Bool
  | .putWorkspace _ | .markWorkspaceRemoved _ | .appendCorrelation _ _ _ | .saveCheckpoint _ _ _
  | .settleAttempt _ _ _ _ _ => true
  | _ => false

def Command.logs : Command → Bool
  | .settleAttempt _ _ _ _ _ | .appendJobEvent _ | .appendAttemptEvent _ _ => true
  | _ => false

def Command.manages : Command → Bool
  | .putWorkspace _ | .markWorkspaceRemoved _ => true
  | _ => false

def NewCheckpoint.row (checkpoint : NewCheckpoint) (checkpointId : CheckpointId)
    (sequence : Nat) : CheckpointRecord :=
  ⟨checkpointId, checkpoint.attemptId, sequence, checkpoint.kind, checkpoint.payload,
    checkpoint.workspaceRoot, checkpoint.workspaceRevision, checkpoint.correlationId⟩

def WorkspaceRow.worktree (w : WorkspaceRow) : JobId × String × String :=
  (w.jobId, w.root, w.revision)

def WorkspaceBinding.worktree (w : WorkspaceBinding) : JobId × String × String :=
  (w.jobId, w.root, w.revision)

namespace Store

variable {now : Timestamp} {s t : Store} {command : Command} {response : Response}

def SucceededBefore (s : Store) (a : AttemptRow) : Prop :=
  ∃ b ∈ s.attempts, b.attemptId = a.attemptId ∧ b.status = .succeeded

def Writes (s : Store) (fence : AttemptFence) (checkpoint : NewCheckpoint)
    (rows : List CheckpointRecord) : Prop :=
  checkpoint.attemptId = fence.attemptId ∧
    (∃ a ∈ s.attempts, a.attemptId = fence.attemptId ∧ a.status = .running) ∧
    ∃ checkpointId, rows = s.checkpoints ++
      [checkpoint.row checkpointId (s.nextCheckpointSequence checkpoint.attemptId)]

structure Records (s : Store) (command : Command) (t : Store) : Prop where
  checkpoints : command.writes = none ∧ t.checkpoints = s.checkpoints ∨
    ∃ fence checkpoint, command.writes = some (fence, checkpoint) ∧
      s.Writes fence checkpoint t.checkpoints
  correlations : ∃ added, t.correlations = s.correlations ++ added
  correlations_unique : (s.correlations.map (·.correlationId)).Nodup →
    (t.correlations.map (·.correlationId)).Nodup
  worktrees : ∀ w ∈ s.workspaces, ∃ v ∈ t.workspaces, v.worktree = w.worktree ∨
    ∃ binding, command.binds = some binding ∧ binding.jobId = w.jobId ∧
      v.worktree = binding.worktree
  workspaces_unique : (s.workspaces.map (·.jobId)).Nodup → (t.workspaces.map (·.jobId)).Nodup
  succeeded : ∀ a ∈ t.attempts, a.status = .succeeded → s.SucceededBefore a ∨
    ∃ fence, command.succeeds = some fence ∧ a.attemptId = fence.attemptId ∧
      ∃ b ∈ s.attempts, b.attemptId = fence.attemptId

structure Quiet (s t : Store) : Prop where
  checkpoints : t.checkpoints = s.checkpoints
  correlations : t.correlations = s.correlations
  workspaces : t.workspaces = s.workspaces
  succeeded : ∀ a ∈ t.attempts, a.status = .succeeded → s.SucceededBefore a

structure Frame (s : Store) (command : Command) (t : Store) : Prop where
  quiet : command.files = false → Quiet s t
  events : command.logs = false → t.events = s.events ∧ t.nextSequence = s.nextSequence

theorem kept_worktrees (command : Command) (same : t.workspaces = s.workspaces) :
    ∀ w ∈ s.workspaces, ∃ v ∈ t.workspaces, v.worktree = w.worktree ∨
      ∃ binding, command.binds = some binding ∧ binding.jobId = w.jobId ∧
        v.worktree = binding.worktree := by
  intro w hw
  exact ⟨w,same ▸ hw,inl rfl⟩

theorem records_quiet (silent : command.writes = none) (h : Quiet s t) : Records s command t where
  checkpoints := inl ⟨silent,h.checkpoints⟩
  correlations := ⟨[],h.correlations.trans (append_nil _).symm⟩
  correlations_unique := by rw [h.correlations]; exact id
  worktrees := kept_worktrees command h.workspaces
  workspaces_unique := by rw [h.workspaces]; exact id
  succeeded := fun a ha done => inl (h.succeeded a ha done)

theorem succeededBefore_same (attempts : t.attempts = s.attempts) :
    ∀ a ∈ t.attempts, a.status = .succeeded → s.SucceededBefore a := by
  intro a ha done
  exact ⟨a,attempts ▸ ha,rfl,done⟩

variable {f : AttemptRow → AttemptRow} {p : AttemptRow → Bool} {fence : AttemptFence}
  {checkpointId : CheckpointId}

theorem succeededBefore_updateWhere
    (h : ∀ a, (f a).attemptId = a.attemptId ∧ ((f a).status = .succeeded → a.status = .succeeded)) :
    ∀ a ∈ updateWhere p f s.attempts, a.status = .succeeded → s.SucceededBefore a := by
  intro a ha done
  obtain ⟨b,hb,rfl⟩ := mem_updateWhere.mp ha
  by_cases hit : p b = true
  · rw [if_pos hit] at done ⊢
    exact ⟨b,hb,(h b).1.symm,(h b).2 done⟩
  · rw [if_neg hit] at done ⊢
    exact ⟨b,hb,rfl,done⟩

theorem quiet_same (checkpoints : t.checkpoints = s.checkpoints)
    (correlations : t.correlations = s.correlations) (workspaces : t.workspaces = s.workspaces)
    (attempts : t.attempts = s.attempts) : Quiet s t :=
  ⟨checkpoints,correlations,workspaces,succeededBefore_same attempts⟩

theorem quiet_events (events : List JobEventRow) (nextSequence : Nat) :
    Quiet s { s with events := events, nextSequence := nextSequence } :=
  quiet_same rfl rfl rfl rfl

theorem quiet_attempts (checkpoints : t.checkpoints = s.checkpoints)
    (correlations : t.correlations = s.correlations) (workspaces : t.workspaces = s.workspaces)
    (attempts : t.attempts = updateWhere p f s.attempts)
    (h : ∀ a, (f a).attemptId = a.attemptId ∧ ((f a).status = .succeeded → a.status = .succeeded)) :
    Quiet s t :=
  ⟨checkpoints,correlations,workspaces,attempts ▸ succeededBefore_updateWhere h⟩

theorem claimRecovery_quiet {scope : RecoveryScope} {request : ClaimRequest}
    {locked : List OperationId} {attemptId : AttemptId} {lease : Option RecoveryLease}
    (h : s.claimRecovery now scope request locked attemptId = .ok (lease, t)) : Quiet s t := by
  rcases claimRecovery_ok h with ⟨_,rfl⟩ | ⟨_,_,_,_,_,_,_,claim⟩
  · exact quiet_same rfl rfl rfl rfl
  · cases claim with
    | started row _ _ row_eq =>
      refine ⟨rfl,rfl,rfl,?_⟩
      intro a ha done
      rcases mem_append.mp ha with old | new
      · exact ⟨a,old,rfl,done⟩
      · rw [mem_singleton.mp new,row_eq] at done
        cases done
    | reclaimed => exact quiet_attempts rfl rfl rfl rfl fun _ => ⟨rfl,id⟩

theorem settle_succeeded (fence : AttemptFence) (context : AttemptContextRow)
    (settlement : AttemptSettlement) :
    ∀ a ∈ (s.settle fence context settlement).attempts, a.status = .succeeded →
      s.SucceededBefore a ∨ settlement = .succeeded ∧ a.attemptId = fence.attemptId := by
  intro a ha done
  cases settlement with
  | succeeded =>
    rw [settleSuccess_attempts] at ha
    obtain ⟨b,hb,rfl⟩ := mem_updateWhere.mp ha
    by_cases own : b.attemptId = fence.attemptId
    · rw [if_pos (decide_eq_true own)]
      exact inr ⟨rfl,own⟩
    · rw [if_neg (by simpa using own)] at done ⊢
      exact inl ⟨b,hb,rfl,done⟩
  | failed failure =>
    rw [settleFailure_attempts] at ha
    refine inl (succeededBefore_updateWhere ?_ a ha done)
    intro b
    exact ⟨rfl,by simp⟩

theorem settle_files (fence : AttemptFence) (context : AttemptContextRow)
    (settlement : AttemptSettlement) :
    (s.settle fence context settlement).checkpoints = s.checkpoints ∧
      (s.settle fence context settlement).correlations = s.correlations ∧
      (s.settle fence context settlement).workspaces = s.workspaces := by
  cases settlement with
  | succeeded =>
    simp only [settle,settleSuccess]
    split <;> exact ⟨rfl,rfl,rfl⟩
  | failed failure =>
    simp only [settle,settleFailure]
    split <;> exact ⟨rfl,rfl,rfl⟩

theorem attemptContext_running {context : AttemptContextRow}
    (h : s.attemptContext now fence = some context) :
    ∃ a ∈ s.attempts, a.attemptId = fence.attemptId ∧ a.status = .running := by
  obtain ⟨a,_,_,found,_⟩ := attemptContext_some.mp h
  obtain ⟨same,running,_⟩ := AttemptRow.holds_iff.mp (find?_some found)
  exact ⟨a,mem_of_find?_eq_some found,congrArg AttemptFence.attemptId same,running⟩

theorem lt_nextCheckpointSequence {c : CheckpointRecord} (hc : c ∈ s.checkpoints) :
    c.sequence < s.nextCheckpointSequence c.attemptId := by
  refine Nat.lt_succ_of_le (le_foldl_max ?_)
  exact mem_map_of_mem (mem_filter.mpr ⟨hc,decide_eq_true rfl⟩)

theorem saveCheckpoint_records {checkpoint : NewCheckpoint} {row : CheckpointRecord}
    (h : s.saveCheckpoint now fence checkpoint checkpointId = .ok (row, t)) :
    Records s (.saveCheckpoint fence checkpoint checkpointId) t := by
  obtain ⟨own,⟨context,lease⟩,insert⟩ := saveCheckpoint_ok h
  obtain ⟨_,_,rfl,rfl⟩ := insertCheckpoint_ok insert
  refine ⟨inr ⟨fence,checkpoint,rfl,own,attemptContext_running lease,checkpointId,rfl⟩,
    ⟨[],(append_nil _).symm⟩,id,kept_worktrees _ rfl,id,?_⟩
  intro a ha done
  exact inl (succeededBefore_same rfl a ha done)

theorem settleAttempt_records {settlement : AttemptSettlement} {checkpoint : Option NewCheckpoint}
    {event : Option NewAttemptEvent} {record : Option CheckpointRecord}
    (h : s.settleAttemptWithEvent now fence settlement checkpoint event checkpointId =
      .ok (record, t)) :
    Records s (.settleAttempt fence settlement checkpoint event checkpointId) t := by
  obtain ⟨context,s1,events,nextSequence,own,lease,_,insert,rfl⟩ :=
    settleAttemptWithEvent_ok h
  obtain ⟨checkpoints,correlations,workspaces⟩ := @settle_files s1 fence context settlement
  have tables : s1.correlations = s.correlations ∧ s1.workspaces = s.workspaces ∧
      s1.attempts = s.attempts ∧
      (checkpoint = none ∧ s1.checkpoints = s.checkpoints ∨
        ∃ new, checkpoint = some new ∧ s.Writes fence new s1.checkpoints) := by
    rcases insertOptionalCheckpoint_ok insert with ⟨absent,_,rfl⟩ | ⟨new,row,rfl,_,added⟩
    · exact ⟨rfl,rfl,rfl,inl ⟨absent,rfl⟩⟩
    · obtain ⟨_,_,rfl,rfl⟩ := insertCheckpoint_ok added
      exact ⟨rfl,rfl,rfl,inr ⟨new,rfl,own new rfl,attemptContext_running lease,
        checkpointId,rfl⟩⟩
  obtain ⟨sameCorrelations,sameWorkspaces,sameAttempts,written⟩ := tables
  refine ⟨?_,⟨[],?_⟩,?_,kept_worktrees _ (workspaces.trans sameWorkspaces),?_,?_⟩
  · rcases written with ⟨rfl,same⟩ | ⟨new,rfl,writes⟩
    · exact inl ⟨rfl,checkpoints.trans same⟩
    · exact inr ⟨fence,new,rfl,by rw [checkpoints]; exact writes⟩
  · rw [append_nil]
    exact correlations.trans sameCorrelations
  · rw [correlations,sameCorrelations]
    exact id
  · rw [workspaces,sameWorkspaces]
    exact id
  · intro a ha done
    rcases settle_succeeded fence context settlement a ha done with before | ⟨rfl,settled⟩
    · unfold SucceededBefore at before
      rw [sameAttempts] at before
      exact inl before
    · obtain ⟨b,hb,own,_⟩ := attemptContext_running lease
      exact inr ⟨fence,rfl,settled,b,hb,own⟩

theorem putWorkspace_records {binding : WorkspaceBinding} (h : s.putWorkspace binding = .ok t) :
    Records s (.putWorkspace binding) t := by
  simp only [putWorkspace,bind_ok] at h
  obtain ⟨_,_,_,_,h⟩ := h
  split at h
  next =>
    obtain rfl := pure_ok.mp h
    refine ⟨inl ⟨rfl,rfl⟩,⟨[],(append_nil _).symm⟩,id,?_,?_,?_⟩
    · intro w hw
      refine ⟨_,mem_updateWhere.mpr ⟨w,hw,rfl⟩,?_⟩
      by_cases own : w.jobId = binding.jobId
      · rw [if_pos (decide_eq_true own)]
        refine inr ⟨binding,rfl,own.symm,?_⟩
        simp only [WorkspaceRow.worktree,WorkspaceBinding.worktree,own]
      · rw [if_neg (by simpa using own)]
        exact inl rfl
    · intro unique
      exact nodup_updateWhere (fun _ => rfl) unique
    · intro a ha done
      exact inl (succeededBefore_same rfl a ha done)
  next absent =>
    obtain rfl := pure_ok.mp h
    refine ⟨inl ⟨rfl,rfl⟩,⟨[],(append_nil _).symm⟩,id,?_,?_,?_⟩
    · intro w hw
      exact ⟨w,mem_append_left _ hw,inl rfl⟩
    · intro unique
      refine nodup_concat unique ?_
      intro w hw same
      exact absent (any_eq_true.mpr ⟨w,hw,decide_eq_true same⟩)
    · intro a ha done
      exact inl (succeededBefore_same rfl a ha done)

theorem markWorkspaceRemoved_records {jobId : JobId} (h : s.markWorkspaceRemoved jobId = .ok t) :
    Records s (.markWorkspaceRemoved jobId) t := by
  simp only [markWorkspaceRemoved,bind_ok,pure_ok] at h
  obtain ⟨_,_,rfl⟩ := h
  refine ⟨inl ⟨rfl,rfl⟩,⟨[],(append_nil _).symm⟩,id,?_,?_,?_⟩
  · intro w hw
    refine ⟨_,mem_updateWhere.mpr ⟨w,hw,rfl⟩,inl ?_⟩
    split <;> rfl
  · intro unique
    exact nodup_updateWhere (fun _ => rfl) unique
  · intro a ha done
    exact inl (succeededBefore_same rfl a ha done)

theorem appendCorrelation_records {correlation : Correlation} {correlationId : CorrelationRecordId}
    {row : DurableCorrelationRecord}
    (h : s.appendCorrelation now fence correlation correlationId = .ok (row, t)) :
    Records s (.appendCorrelation fence correlation correlationId) t := by
  obtain ⟨_,_,_,fresh,rfl,rfl⟩ := appendCorrelation_ok h
  refine ⟨inl ⟨rfl,rfl⟩,⟨_,rfl⟩,fun unique => nodup_concat unique fresh,
    kept_worktrees _ rfl,id,?_⟩
  intro a ha done
  exact inl (succeededBefore_same rfl a ha done)

theorem frame_same (checkpoints : t.checkpoints = s.checkpoints)
    (correlations : t.correlations = s.correlations) (workspaces : t.workspaces = s.workspaces)
    (attempts : t.attempts = s.attempts) (events : t.events = s.events)
    (next : t.nextSequence = s.nextSequence) : Frame s command t :=
  ⟨fun _ => quiet_same checkpoints correlations workspaces attempts,fun _ => ⟨events,next⟩⟩

theorem exec_frame (h : s.exec now command = .ok (response, t)) : Frame s command t := by
  cases provisions : command.provisions with
  | true =>
    obtain ⟨rfl | change,-⟩ := exec_provisions provisions h
    · exact frame_same rfl rfl rfl rfl rfl rfl
    · obtain ⟨_,rfl⟩ := change.only
      exact frame_same rfl rfl rfl rfl rfl rfl
  | false =>
  cases command
  all_goals simp only [exec,map_ok,Prod.exists,Prod.map,Prod.mk.injEq,id] at h
  case createJob =>
    obtain ⟨_,h,_,rfl⟩ := h
    obtain ⟨_,_,_,_,rfl⟩ := createJob_ok h
    exact frame_same rfl rfl rfl rfl rfl rfl
  case continueJob =>
    obtain ⟨_,h,_,rfl⟩ := h
    obtain ⟨_,_,_,_,_,_,_,_,_,_,_,rfl⟩ := continueJob_ok h
    exact frame_same rfl rfl rfl rfl rfl rfl
  case cancelJob =>
    obtain ⟨_,h,_,rfl⟩ := h
    obtain ⟨_,_,⟨_,rfl⟩ | ⟨_,_,rfl⟩ | ⟨_,_,rfl⟩⟩ := cancelJob_ok h
    all_goals exact frame_same rfl rfl rfl rfl rfl rfl
  case acknowledgeJobCancellation =>
    obtain ⟨_,h,_,rfl⟩ := h
    obtain ⟨_,_,_,_,rfl⟩ := acknowledgeJobCancellation_ok h
    refine ⟨fun _ => quiet_attempts rfl rfl rfl rfl fun a => ?_,fun _ => ⟨rfl,rfl⟩⟩
    exact ⟨rfl,by simp⟩
  case claimRecovery =>
    obtain ⟨_,_,h,_,rfl⟩ := h
    refine ⟨fun _ => claimRecovery_quiet h,fun _ => ?_⟩
    rcases claimRecovery_ok h with ⟨_,rfl⟩ | ⟨_,_,_,_,_,_,_,claim⟩
    · exact ⟨rfl,rfl⟩
    · cases claim <;> exact ⟨rfl,rfl⟩
  case renewAttempt =>
    obtain ⟨_,h,_,rfl⟩ := h
    obtain ⟨_,rfl⟩ := renewAttempt_ok h
    exact ⟨fun _ => quiet_attempts rfl rfl rfl rfl fun a => ⟨rfl,id⟩,fun _ => ⟨rfl,rfl⟩⟩
  case relinquishAttempt =>
    obtain ⟨_,h,_,rfl⟩ := h
    obtain ⟨_,rfl⟩ := relinquishAttempt_ok h
    exact ⟨fun _ => quiet_attempts rfl rfl rfl rfl fun a => ⟨rfl,id⟩,fun _ => ⟨rfl,rfl⟩⟩
  case putThreadState =>
    obtain ⟨_,h,_,rfl⟩ := h
    obtain ⟨_,rfl⟩ := putThreadState_ok h
    unfold upsertThreadState
    split <;> exact frame_same rfl rfl rfl rfl rfl rfl
  case appendJobEvent =>
    obtain ⟨_,_,h,_,rfl⟩ := h
    obtain ⟨events,nextSequence,rfl⟩ := appendJobEvent_ok h
    exact ⟨fun _ => quiet_events events nextSequence,by rintro ⟨⟩⟩
  case appendAttemptEvent =>
    obtain ⟨_,_,h,_,rfl⟩ := h
    obtain ⟨_,_,insert⟩ := appendAttemptEvent_ok h
    obtain ⟨events,nextSequence,rfl⟩ := insertAttemptEvent_ok insert
    exact ⟨fun _ => quiet_events events nextSequence,by rintro ⟨⟩⟩
  case putWorkspace =>
    obtain ⟨_,h,_,rfl⟩ := h
    obtain ⟨_,rfl⟩ := putWorkspace_ok h
    exact ⟨by rintro ⟨⟩,fun _ => ⟨rfl,rfl⟩⟩
  case markWorkspaceRemoved =>
    obtain ⟨_,h,_,rfl⟩ := h
    obtain ⟨_,rfl⟩ := markWorkspaceRemoved_ok h
    exact ⟨by rintro ⟨⟩,fun _ => ⟨rfl,rfl⟩⟩
  case appendCorrelation =>
    obtain ⟨_,_,h,_,rfl⟩ := h
    obtain ⟨_,_,_,_,_,rfl⟩ := appendCorrelation_ok h
    exact ⟨by rintro ⟨⟩,fun _ => ⟨rfl,rfl⟩⟩
  case saveCheckpoint =>
    obtain ⟨_,_,h,_,rfl⟩ := h
    obtain ⟨_,_,insert⟩ := saveCheckpoint_ok h
    obtain ⟨_,_,_,rfl⟩ := insertCheckpoint_ok insert
    exact ⟨by rintro ⟨⟩,fun _ => ⟨rfl,rfl⟩⟩
  case settleAttempt => exact ⟨by rintro ⟨⟩,by rintro ⟨⟩⟩
  all_goals cases provisions

theorem exec_records (h : s.exec now command = .ok (response, t)) : Records s command t := by
  cases filed : command.files with
  | false =>
    refine records_quiet ?_ ((exec_frame h).quiet filed)
    cases command <;> first | rfl | cases filed
  | true =>
    cases command
    all_goals simp only [exec,map_ok,Prod.exists,Prod.map,Prod.mk.injEq,id] at h
    case putWorkspace =>
      obtain ⟨_,h,_,rfl⟩ := h
      exact putWorkspace_records h
    case markWorkspaceRemoved =>
      obtain ⟨_,h,_,rfl⟩ := h
      exact markWorkspaceRemoved_records h
    case appendCorrelation =>
      obtain ⟨_,_,h,_,rfl⟩ := h
      exact appendCorrelation_records h
    case saveCheckpoint =>
      obtain ⟨_,_,h,_,rfl⟩ := h
      exact saveCheckpoint_records h
    case settleAttempt =>
      obtain ⟨_,_,h,_,rfl⟩ := h
      exact settleAttempt_records h
    all_goals cases filed

theorem exec_workspaces (h : s.exec now command = .ok (response, t))
    (unmanaged : command.manages = false) : t.workspaces = s.workspaces := by
  cases filed : command.files with
  | false => exact ((exec_frame h).quiet filed).workspaces
  | true =>
    cases command
    all_goals simp only [exec,map_ok,Prod.exists,Prod.map,Prod.mk.injEq,id] at h
    case appendCorrelation =>
      obtain ⟨_,_,h,_,rfl⟩ := h
      obtain ⟨_,_,_,_,rfl,rfl⟩ := appendCorrelation_ok h
      rfl
    case saveCheckpoint =>
      obtain ⟨_,_,h,_,rfl⟩ := h
      obtain ⟨_,_,insert⟩ := saveCheckpoint_ok h
      obtain ⟨_,_,rfl,rfl⟩ := insertCheckpoint_ok insert
      rfl
    case settleAttempt fence settlement _ _ _ =>
      obtain ⟨_,_,h,_,rfl⟩ := h
      obtain ⟨context,s1,_,_,_,_,_,insert,rfl⟩ := settleAttemptWithEvent_ok h
      refine (settle_files fence context settlement).2.2.trans ?_
      rcases insertOptionalCheckpoint_ok insert with ⟨_,_,rfl⟩ | ⟨_,_,_,_,added⟩
      · rfl
      · obtain ⟨_,_,rfl,rfl⟩ := insertCheckpoint_ok added
        rfl
    case putWorkspace => cases unmanaged
    case markWorkspaceRemoved => cases unmanaged
    all_goals cases filed

end Store

end Coordinator
