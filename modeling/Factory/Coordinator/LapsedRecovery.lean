import Factory.Coordinator.JobLifecycle

namespace Coordinator

open Result Table List AttemptRow

namespace Store

def releaseAndAcknowledge (now : Timestamp) (fence : AttemptFence) (s : Store) : Outcome Store := do
  let (environment, s) ← s.requestCancellingExecutionEnvironmentRelease now fence
  let s ← match environment with
    | none => pure s
    | some environment =>
      Prod.snd <$> s.markExecutionEnvironmentReleased environment.jobId environment.generation
  s.acknowledgeJobCancellation now fence

variable {now : Timestamp} {s t : Store} {job : JobRow} {o : OperationRow} {a : AttemptRow}
  {request : ClaimRequest} {locked : List OperationId} {attemptId : AttemptId}

structure Lapsed (now : Timestamp) (s : Store) (job : JobRow) (o : OperationRow)
    (a : AttemptRow) : Prop where
  job_mem : job ∈ s.jobs
  operation_mem : o ∈ s.operationsOf job.jobId
  attempt_mem : a ∈ s.attempts
  owned : a.operationId = o.operationId
  status : o.status = .running
  running : a.status = .running
  latest : s.previousAttempt o.operationId = some a
  expired : a.leaseExpiresAt ≤ now
  recoverable : s.recoverable now job o = true

theorem Sound.lapsed (sound : s.Sound) (hjob : job ∈ s.jobs) (ha : a ∈ s.runningAttempts job.jobId)
    (expired : a.leaseExpiresAt ≤ now)
    (housed : job.kind ≠ "factory.task" ∨ s.workspaceActive job.jobId = true) :
    ∃ o, Lapsed now s job o a := by
  obtain ⟨o,row⟩ := sound.runningAttempt hjob ha
  obtain ⟨member,running,_⟩ := mem_runningAttempts.mp ha
  obtain ⟨pre,split⟩ := row.last
  have latest := previousAttempt_last sound.wellFormed split
  refine ⟨o,hjob,row.operation_mem,member,(mem_attemptsOf.mp row.attempt_mem).2,row.status,
    running,latest,expired,?_⟩
  simp only [Store.recoverable,decide_eq_true_eq]
  refine ⟨Or.inr row.job_status,housed,?_,Or.inr ⟨row.status,?_⟩⟩
  · intro p hp own below
    refine row.predecessors p (mem_operationsOf.mpr ⟨hp,?_⟩) below
    exact own.trans (mem_operationsOf.mp row.operation_mem).2
  · rw [latest]
    exact decide_eq_true ⟨running,expired⟩

namespace Lapsed

theorem row_mem (h : Lapsed now s job o a) {jobId : Option JobId}
    {operationId : Option OperationId} (jobs : ∀ id ∈ jobId, job.jobId = id)
    (operations : ∀ id ∈ operationId, o.operationId = id) :
    (job, o) ∈ s.recoveryRows now jobId operationId := by
  simp only [recoveryRows,mem_filter,mem_flatMap,mem_map,decide_eq_true_eq,
    Prod.mk.injEq]
  exact ⟨⟨job,h.job_mem,o,h.operation_mem,rfl,rfl⟩,jobs,operations,h.recoverable⟩

theorem rows_operation {row : JobRow × OperationRow}
    (hit : row ∈ s.recoveryRows now none (some o.operationId)) :
    row.2.operationId = o.operationId := by
  simp only [recoveryRows,mem_filter,decide_eq_true_eq] at hit
  exact hit.2.2.1 _ rfl

theorem candidate (h : Lapsed now s job o a) {profile : Option ExecutionProfile}
    (profiled : job.profileMatches profile = true) (free : o.operationId ∉ locked) :
    s.recoveryCandidate now none (some o.operationId) profile locked = some o.operationId := by
  have member : (job, o) ∈ (s.recoveryRows now none (some o.operationId)).filter
      (fun row => row.1.profileMatches profile ∧ row.2.operationId ∉ locked) := by
    refine mem_filter.mpr ⟨h.row_mem nofun ?_,decide_eq_true ⟨profiled,free⟩⟩
    rintro _ ⟨⟩
    rfl
  unfold recoveryCandidate firstBy
  cases best : ((s.recoveryRows now none (some o.operationId)).filter
      (fun row => row.1.profileMatches profile ∧ row.2.operationId ∉ locked)).argmin
        recoveryKey with
  | none =>
    rw [argmin_eq_none] at best
    rw [best] at member
    exact absurd member not_mem_nil
  | some row =>
    have hit := (mem_filter.mp (argmin_mem best)).1
    exact congrArg some (rows_operation hit)

theorem selectionRow (h : Lapsed now s job o a) (wf : s.WellFormed) :
    s.recoverySelectionRow now none (some o.operationId) = some (job, o) := by
  have member : (job, o) ∈ s.recoveryRows now none (some o.operationId) := by
    refine h.row_mem nofun ?_
    rintro _ ⟨⟩
    rfl
  cases best : s.recoverySelectionRow now none (some o.operationId) with
  | none =>
    rw [argmin_eq_none.mp best] at member
    exact absurd member not_mem_nil
  | some row =>
    obtain ⟨j,p⟩ := row
    obtain ⟨hj,hp,owned,_⟩ := recoverySelectionRow_some best
    have sameId : p.operationId = o.operationId := rows_operation (argmin_mem best)
    obtain ⟨ho,owner⟩ := mem_operationsOf.mp h.operation_mem
    obtain rfl := wf.operation_eq hp ho sameId
    obtain rfl := wf.job_eq hj h.job_mem (owned.symm.trans owner)
    rfl

theorem find_lapsed (h : Lapsed now s job o a) (wf : s.WellFormed) :
    s.attempts.find? (lapsed now a.attemptId) = some a := by
  have own : a.lapsed now a.attemptId = true :=
    lapsed_iff.mpr ⟨rfl,h.running,h.expired⟩
  cases found : s.attempts.find? (lapsed now a.attemptId) with
  | none => exact absurd own (find?_eq_none.mp found a h.attempt_mem)
  | some b =>
    have hit := find?_some found
    rw [wf.attempt_eq (mem_of_find?_eq_some found) h.attempt_mem
      (lapsed_iff.mp hit).1]

theorem claim (h : Lapsed now s job o a) (wf : s.WellFormed)
    (open_job : job.status = .queued ∨ job.status = .running ∨ job.status = .cancelling)
    (positive : request.leaseSeconds ≠ 0)
    (profiled : job.profileMatches request.executionProfile = true)
    (free : o.operationId ∉ locked) (epoch : a.leaseEpoch + 1 ≤ i64Max) :
    ∃ selection, s.claimRecovery now (.operation o.operationId) request locked attemptId =
      .ok (some ⟨selection, a.reclaim now request selection.resume.ids,
          (a.reclaim now request selection.resume.ids).fence⟩,
        { s.startJob job.jobId with
          attempts := updateWhere (lapsed now a.attemptId)
            (reclaim now request selection.resume.ids)
            s.attempts }.setOperationStatus o.operationId .running) := by
  have present : s.jobs.any (fun j => j.jobId = job.jobId ∧
      (j.status = .queued ∨ j.status = .running ∨ j.status = .cancelling)) = true :=
    any_eq_true.mpr ⟨job,h.job_mem,decide_eq_true ⟨rfl,open_job⟩⟩
  have selected : ∃ selection, s.recoverySelection job o = .ok selection ∧
      selection.jobId = job.jobId ∧ selection.operationId = o.operationId ∧
      selection.cause = .leaseExpired ∧ selection.previousAttemptId = some a.attemptId := by
    unfold recoverySelection
    rw [h.status,h.latest]
    exact ⟨_,rfl,rfl,rfl,rfl,rfl⟩
  obtain ⟨selection,chosen,jobId,operationId,cause,previous⟩ := selected
  have found : (s.startJob job.jobId).attempts.find? (lapsed now a.attemptId) =
      some a := h.find_lapsed wf
  refine ⟨selection,?_⟩
  unfold claimRecovery
  simp only [RecoveryScope.databaseIds]
  rw [h.candidate profiled free]
  dsimp only
  rw [h.selectionRow wf]
  simp only [ensure,positive,ne_eq,not_false_eq_true,if_true,bind,Except.bind,chosen,
    claimSelection,jobId,operationId,present,claimAttempt,cause,takeOver,previous,okOr,
    found,epoch,pure,Except.pure]
  rfl

end Lapsed

theorem attemptContext_of_rows (wf : s.WellFormed) (ha : a ∈ s.attempts)
    (running : a.status = .running) (live : now < a.leaseExpiresAt) (ho : o ∈ s.operations)
    (owned : o.operationId = a.operationId) (hjob : job ∈ s.jobs) (owner : job.jobId = o.jobId) :
    s.attemptContext now a.fence = some ⟨o.operationId, job.jobId, job.status, a.attemptNumber,
      o.maxAttempts⟩ := by
  have holds : a.holds now a.fence = true := holds_iff.mpr ⟨rfl,running,live⟩
  have found : s.attempts.find? (AttemptRow.holds now a.fence) = some a := by
    cases hit : s.attempts.find? (AttemptRow.holds now a.fence) with
    | none => exact absurd holds (find?_eq_none.mp hit a ha)
    | some b =>
      have same := (holds_iff.mp (find?_some hit)).1
      rw [wf.attempt_eq (mem_of_find?_eq_some hit) ha
        (congrArg AttemptFence.attemptId same)]
  refine attemptContext_some.mpr ⟨a,o,job,found,?_,?_,?_⟩
  · rw [← owned]
    exact find_key OperationRow.operationId wf.operations_unique ho
  · rw [← owner]
    exact find_key JobRow.jobId wf.jobs_unique hjob
  · rw [owned,owner]

theorem updateEnvironment_found {jobId : JobId} {guard : EnvironmentRow → Bool}
    {f : EnvironmentRow → EnvironmentRow} {e : EnvironmentRow}
    (found : s.findEnvironment jobId = some e) (hit : guard e = true)
    (kept : ∀ e, (f e).jobId = e.jobId) :
    ∃ environments, s.updateEnvironment jobId guard f =
        (some (f e), { s with environments := environments }) ∧
      { s with environments := environments }.findEnvironment jobId = some (f e) := by
  have narrow : s.environments.find? (fun e => e.jobId = jobId ∧ guard e) = some e := by
    have both := find_narrow found hit
    simpa only [decide_eq_true_eq] using both
  refine ⟨updateWhere (fun e => e.jobId = jobId ∧ guard e) f s.environments,?_,?_⟩
  · unfold updateEnvironment
    rw [narrow]
  · unfold findEnvironment updateWhere
    rw [find_map_key EnvironmentRow.jobId]
    · have own := find?_some found
      rw [show s.environments.find? (fun e => e.jobId = jobId) = some e from found,
        Option.map_some,if_pos (decide_eq_true ⟨of_decide_eq_true own,hit⟩)]
    · intro e
      split
      · exact kept e
      · rfl

theorem acknowledge_cancelled {fence : AttemptFence} {context : AttemptContextRow}
    (lease : s.attemptContext now fence = some context)
    (cancelling : context.jobStatus = .cancelling) (epoch : fence.leaseEpoch ≤ i64Max)
    (released : ∀ e ∈ s.findEnvironment context.jobId, e.status = .released) :
    ∃ u, s.acknowledgeJobCancellation now fence = .ok u ∧
      ∃ j ∈ u.jobs, j.jobId = context.jobId ∧ j.status = .cancelled := by
  have locked := lockAttemptContext_ok.mpr ⟨epoch,lease⟩
  obtain ⟨j,found,id,_⟩ := attemptContext_job lease
  refine ⟨((s.setAttempt fence.attemptId ({ · with
    status := .abandoned, failure := some jobCancelledFailure })).cancelUnfinishedOperations
      context.jobId).setJobStatus context.jobId .cancelled,?_,?_⟩
  · unfold acknowledgeJobCancellation
    simp only [locked,bind,Except.bind,ensure,cancelling,if_true]
    rw [if_pos released]
    rfl
  · refine ⟨{ j with status := .cancelled },mem_updateWhere.mpr ⟨j,?_,?_⟩,id,rfl⟩
    · exact (findJob_some found).1
    · rw [if_pos (decide_eq_true id)]

theorem releases_and_acknowledges {fence : AttemptFence} {context : AttemptContextRow}
    (lease : s.attemptContext now fence = some context)
    (cancelling : context.jobStatus = .cancelling) (epoch : fence.leaseEpoch ≤ i64Max)
    (generation : ∀ e ∈ s.findEnvironment context.jobId, e.generation ≤ i64Max) :
    ∃ u, s.releaseAndAcknowledge now fence = .ok u ∧
      ∃ j ∈ u.jobs, j.jobId = context.jobId ∧ j.status = .cancelled := by
  have locked := lockAttemptContext_ok.mpr ⟨epoch,lease⟩
  cases environment : s.findEnvironment context.jobId with
  | none =>
    obtain ⟨u,acknowledged,done⟩ := acknowledge_cancelled lease cancelling epoch (by
      rw [environment]
      nofun)
    refine ⟨u,?_,done⟩
    unfold releaseAndAcknowledge requestCancellingExecutionEnvironmentRelease
    simp only [locked,bind,Except.bind,ensure,cancelling,if_true,environment,pure,
      Except.pure,acknowledged]
  | some e =>
    have range := generation e environment
    obtain ⟨requested,update,found⟩ := @updateEnvironment_found s context.jobId
      (fun x => x.generation = e.generation) EnvironmentRow.requestRelease e environment
      (decide_eq_true rfl) fun _ => rfl
    obtain ⟨released,mark,gone⟩ := @updateEnvironment_found
      { s with environments := requested } context.jobId
      (fun x => x.generation = e.generation ∧ x.desiredState = .released)
      EnvironmentRow.markReleased e.requestRelease found (decide_eq_true ⟨rfl,rfl⟩)
      fun _ => rfl
    have own : e.jobId = context.jobId := by
      have hit := find?_some environment
      exact of_decide_eq_true hit
    obtain ⟨u,acknowledged,done⟩ := @acknowledge_cancelled now
      { s with environments := released } fence context lease cancelling epoch (by
        rw [gone]
        rintro _ ⟨⟩
        rfl)
    refine ⟨u,?_,done⟩
    have requests : s.requestCancellingExecutionEnvironmentRelease now fence =
        .ok (some e.requestRelease, { s with environments := requested }) := by
      unfold requestCancellingExecutionEnvironmentRelease databaseSequence
      simp only [locked,bind,Except.bind,ensure,cancelling,if_true,environment,range,
        pure,Except.pure,update,requireGenerationMatch]
    have marks : { s with environments := requested }.markExecutionEnvironmentReleased
        e.requestRelease.jobId e.requestRelease.generation =
          .ok (e.requestRelease.markReleased, { s with environments := released }) := by
      unfold markExecutionEnvironmentReleased databaseSequence
      simp only [EnvironmentRow.requestRelease] at mark ⊢
      simp only [own,bind,Except.bind,ensure,range,if_true,pure,Except.pure,mark,
        requireGenerationMatch]
    unfold releaseAndAcknowledge
    rw [requests]
    simp only [bind,Except.bind,marks,Functor.map,Except.map,acknowledged]

theorem claimRecovery_sound {scope : RecoveryScope} {lease : Option RecoveryLease}
    (sound : s.Sound) (h : s.claimRecovery now scope request locked attemptId = .ok (lease, t)) :
    t.Sound := by
  have executed : s.exec now (.claimRecovery scope request locked attemptId) =
      .ok (.lease lease, t) := by
    simp only [exec,h]
    rfl
  obtain ⟨_,transition,agrees⟩ := exec_transition executed
  exact (sound.transition transition).agrees agrees

theorem Lapsed.acknowledgeable (h : Lapsed now s job o a) (sound : s.Sound)
    (cancelling : job.status = .cancelling) (positive : request.leaseSeconds ≠ 0)
    (profiled : job.profileMatches request.executionProfile = true)
    (free : o.operationId ∉ locked) (epoch : a.leaseEpoch + 1 ≤ i64Max)
    (generation : ∀ e ∈ s.findEnvironment job.jobId, e.generation ≤ i64Max) :
    ∃ lease t, s.claimRecovery now (.operation o.operationId) request locked attemptId =
        .ok (some lease, t) ∧ lease.attempt.attemptId = a.attemptId ∧
      ∃ u, t.releaseAndAcknowledge now lease.fence = .ok u ∧
        ∃ j ∈ u.jobs, j.jobId = job.jobId ∧ j.status = .cancelled := by
  obtain ⟨selection,claimed⟩ := @Lapsed.claim _ _ _ _ _ request locked attemptId h
    sound.wellFormed (Or.inr (Or.inr cancelling)) positive profiled free epoch
  refine ⟨_,_,claimed,rfl,?_⟩
  have sound' := claimRecovery_sound sound claimed
  obtain ⟨ho,owner⟩ := mem_operationsOf.mp h.operation_mem
  have reclaimed : a.reclaim now request selection.resume.ids ∈
      updateWhere (lapsed now a.attemptId)
        (reclaim now request selection.resume.ids) s.attempts :=
    mem_updateWhere.mpr ⟨a,h.attempt_mem,
      if_pos (lapsed_iff.mpr ⟨rfl,h.running,h.expired⟩)⟩
  have live : now < (a.reclaim now request selection.resume.ids).leaseExpiresAt := by
    have seconds : 0 < request.leaseSeconds := Nat.pos_of_ne_zero positive
    have gain : (0 : Int) < request.leaseSeconds * microsPerSecond := by
      unfold microsPerSecond
      omega
    exact Int.lt_add_of_pos_right now gain
  have operation : { o with status := OperationState.running } ∈
      updateWhere (fun p => p.operationId = o.operationId)
        (fun p => { p with status := OperationState.running }) s.operations :=
    mem_updateWhere.mpr ⟨o,ho,if_pos (decide_eq_true rfl)⟩
  have kept : job ∈ (s.startJob job.jobId).jobs := by
    refine mem_updateWhere.mpr ⟨job,h.job_mem,?_⟩
    rw [if_pos (decide_eq_true ⟨rfl,Or.inr (Or.inr cancelling)⟩),if_pos cancelling]
  exact releases_and_acknowledges (attemptContext_of_rows sound'.wellFormed reclaimed h.running
    live operation h.owned.symm kept owner.symm) cancelling epoch generation

end Store

end Coordinator
