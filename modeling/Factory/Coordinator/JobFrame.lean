import Factory.Coordinator.JobLifecycle

namespace Coordinator

open Table

namespace Store

def ownsAttempt (s : Store) (jobId : JobId) (a : AttemptRow) : Bool :=
  s.operations.any (fun o => o.operationId = a.operationId ∧ o.jobId = jobId)

def attemptsIn (s : Store) (jobId : JobId) : List AttemptRow :=
  s.attempts.filter (s.ownsAttempt jobId)

structure Frozen (s t : Store) (jobId : JobId) : Prop where
  job : t.findJob jobId = s.findJob jobId
  operations : t.operationsOf jobId = s.operationsOf jobId
  attempts : t.attemptsIn jobId = s.attemptsIn jobId

variable {now : Timestamp} {s t u : Store} {id jobId : JobId} {fence : AttemptFence}
  {context : AttemptContextRow} {a : AttemptRow} {o : OperationRow} {job : JobRow}

theorem ownsAttempt_iff : s.ownsAttempt jobId a = true ↔
    ∃ o ∈ s.operations, o.operationId = a.operationId ∧ o.jobId = jobId := by
  simp only [ownsAttempt,List.any_eq_true,decide_eq_true_eq]

theorem ownsAttempt_congr (same : t.operationsOf jobId = s.operationsOf jobId) :
    t.ownsAttempt jobId = s.ownsAttempt jobId := by
  have owned : ∀ (r : Store) (a : AttemptRow), r.ownsAttempt jobId a = true ↔
      ∃ o ∈ r.operationsOf jobId, o.operationId = a.operationId := by
    intro r a
    rw [ownsAttempt_iff]
    constructor
    · rintro ⟨o,mem,owner,job⟩
      exact ⟨o,mem_operationsOf.mpr ⟨mem,job⟩,owner⟩
    · rintro ⟨o,mem,owner⟩
      obtain ⟨mem,job⟩ := mem_operationsOf.mp mem
      exact ⟨o,mem,owner,job⟩
  funext a
  rw [Bool.eq_iff_iff,owned,owned,same]

theorem ownsAttempt_unique (wf : s.WellFormed) (mem : o ∈ s.operations)
    (owner : o.operationId = a.operationId) (owned : s.ownsAttempt id a = true) : o.jobId = id := by
  obtain ⟨p,mem',owner',rfl⟩ := ownsAttempt_iff.mp owned
  obtain rfl := wf.operation_eq mem mem' (owner.trans owner'.symm)
  rfl

theorem Frozen.refl (s : Store) (jobId : JobId) : Frozen s s jobId := ⟨rfl,rfl,rfl⟩

theorem Frozen.trans (h : Frozen s t jobId) (h' : Frozen t u jobId) : Frozen s u jobId :=
  ⟨h'.job.trans h.job,h'.operations.trans h.operations,h'.attempts.trans h.attempts⟩

theorem frozen_of_filters
    (jobs : t.jobs.filter (fun j => j.jobId = id) = s.jobs.filter (fun j => j.jobId = id))
    (operations : t.operationsOf id = s.operationsOf id)
    (attempts : t.attempts.filter (s.ownsAttempt id) = s.attempts.filter (s.ownsAttempt id)) :
    Frozen s t id := by
  refine ⟨?_,operations,?_⟩
  · rw [findJob,findJob,← List.head?_filter,← List.head?_filter,jobs]
  · rw [attemptsIn,attemptsIn,ownsAttempt_congr operations,attempts]

theorem frozen_of_tables (jobs : t.jobs = s.jobs) (operations : t.operations = s.operations)
    (attempts : t.attempts = s.attempts) : Frozen s t id :=
  frozen_of_filters (by rw [jobs]) (by rw [operationsOf,operationsOf,operations])
    (by rw [attempts])

theorem jobs_other {p : JobRow → Bool} {f : JobRow → JobRow} {rows : List JobRow}
    (key : ∀ j, (f j).jobId = j.jobId) (miss : ∀ j ∈ rows, p j = true → j.jobId ≠ id) :
    (updateWhere p f rows).filter (fun j => j.jobId = id) =
      rows.filter (fun j => j.jobId = id) := by
  refine filter_updateWhere_other (fun j => by rw [key]) ?_
  intro j mem hit
  exact decide_eq_false (miss j mem hit)

theorem operations_other {p : OperationRow → Bool} {f : OperationRow → OperationRow}
    {rows : List OperationRow} (key : ∀ o, (f o).jobId = o.jobId)
    (miss : ∀ o ∈ rows, p o = true → o.jobId ≠ id) :
    (updateWhere p f rows).filter (fun o => o.jobId = id) =
      rows.filter (fun o => o.jobId = id) := by
  refine filter_updateWhere_other (fun o => by rw [key]) ?_
  intro o mem hit
  exact decide_eq_false (miss o mem hit)

variable {f : AttemptRow → AttemptRow} {newId : Nat → OperationId}

theorem attempts_other {p : AttemptRow → Bool} (key : ∀ a, (f a).operationId = a.operationId)
    (miss : ∀ a ∈ s.attempts, p a = true → s.ownsAttempt id a = false) :
    (updateWhere p f s.attempts).filter (s.ownsAttempt id) =
      s.attempts.filter (s.ownsAttempt id) :=
  filter_updateWhere_other (fun a => by rw [ownsAttempt,ownsAttempt,key]) miss

theorem LeaseRows.misses (rows : LeaseRows now fence s context a o job) (wf : s.WellFormed)
    (other : context.jobId ≠ id) {b : AttemptRow} (mem : b ∈ s.attempts)
    (same : b.attemptId = fence.attemptId) : s.ownsAttempt id b = false := by
  have named : a.attemptId = fence.attemptId := congrArg AttemptFence.attemptId rows.fence_eq
  obtain rfl := wf.attempt_eq rows.attempt_mem mem
    (named.trans same.symm)
  by_contra owned
  refine other ?_
  rw [rows.context_eq]
  exact ownsAttempt_unique wf rows.operation_mem rows.operation_eq.symm (by simpa using owned)

theorem LeaseRows.operation_other (rows : LeaseRows now fence s context a o job)
    (wf : s.WellFormed) (other : context.jobId ≠ id) {p : OperationRow} (mem : p ∈ s.operations)
    (same : p.operationId = context.operationId) : p.jobId ≠ id := by
  rw [rows.context_eq] at same other
  obtain rfl := wf.operation_eq rows.operation_mem mem same.symm
  exact other

theorem createJob_frozen {definition : JobDefinition} (found : s.findJob id = some job)
    (h : s.createJob now definition jobId newId = .ok t) :
    Frozen s t id := by
  obtain ⟨_,_,fresh,_,rfl⟩ := createJob_ok h
  have other : jobId ≠ id := by
    rintro rfl
    exact fresh job (findJob_some found).1 (findJob_some found).2
  refine frozen_of_filters ?_ ?_ rfl
  · simp [List.filter_append,other]
  · rw [operationsOf_insert rfl,if_neg other,List.append_nil]

theorem continueJob_frozen {feedback : String} (found : s.findJob id = some job)
    (unfinished : job.status ≠ .succeeded) (h : s.continueJob now jobId feedback newId = .ok t) :
    Frozen s t id := by
  obtain ⟨continued,round,input,environments,target,_,status,_,_,_,_,rfl⟩ :=
    continueJob_ok h
  have other : jobId ≠ id := by
    rintro rfl
    obtain rfl := Option.some.inj (found.symm.trans target)
    exact unfinished status
  refine frozen_of_filters ?_ ?_ rfl
  · refine jobs_other (fun _ => rfl) ?_
    intro j _ hit
    rw [of_decide_eq_true hit]
    exact other
  · rw [operationsOf_insert rfl,if_neg other,List.append_nil]

theorem cancelUnfinished_frozen {status : JobState} (other : jobId ≠ id)
    (tables : u.jobs = ((s.cancelUnfinishedOperations jobId).setJobStatus jobId status).jobs ∧
      u.operations = (s.cancelUnfinishedOperations jobId).operations)
    (attempts : u.attempts.filter (s.ownsAttempt id) = s.attempts.filter (s.ownsAttempt id)) :
    Frozen s u id := by
  refine frozen_of_filters ?_ ?_ attempts
  · rw [tables.1]
    refine jobs_other (fun _ => rfl) ?_
    intro j _ hit
    rw [of_decide_eq_true hit]
    exact other
  · rw [operationsOf,operationsOf,tables.2]
    refine operations_other (fun _ => rfl) ?_
    intro o _ hit
    rw [(of_decide_eq_true hit).1]
    exact other

theorem cancelJob_frozen (found : s.findJob id = some job)
    (closed : job.status ≠ .queued ∧ job.status ≠ .running) (h : s.cancelJob jobId = .ok t) :
    Frozen s t id := by
  obtain ⟨target,located,outcome⟩ := cancelJob_ok h
  have other : target.status = .queued ∨ target.status = .running → jobId ≠ id := by
    rintro status rfl
    obtain rfl := Option.some.inj (found.symm.trans located)
    exact status.elim closed.1 closed.2
  rcases outcome with ⟨_,rfl⟩ | ⟨status,_,rfl⟩ | ⟨status,_,rfl⟩
  · exact .refl t id
  · refine frozen_of_filters ?_ rfl rfl
    refine jobs_other (fun _ => rfl) ?_
    intro j _ hit
    rw [of_decide_eq_true hit]
    exact other status
  · exact cancelUnfinished_frozen (other status) ⟨rfl,rfl⟩ rfl

theorem acknowledge_frozen (wf : s.WellFormed) (lease : s.attemptContext now fence = some context)
    (other : context.jobId ≠ id) :
    Frozen s (((s.setAttempt fence.attemptId
      ({ · with status := .abandoned, failure := some jobCancelledFailure
        })).cancelUnfinishedOperations context.jobId).setJobStatus context.jobId .cancelled)
      id := by
  obtain ⟨a,o,j,rows⟩ := leaseRows lease
  refine cancelUnfinished_frozen other ⟨rfl,rfl⟩ ?_
  refine attempts_other (fun _ => rfl) ?_
  intro b mem hit
  exact rows.misses wf other mem (of_decide_eq_true hit)

theorem settled_frozen (wf : s.WellFormed) (rows : LeaseRows now fence s context a o job)
    (other : context.jobId ≠ id) (status : JobState) {g : OperationRow → OperationRow}
    (jobs : t.jobs = s.jobs ∨ t.jobs = (s.setJobStatus context.jobId status).jobs)
    (operations : t.operations =
      updateWhere (fun p => p.operationId = context.operationId) g s.operations)
    (attempts : t.attempts = updateWhere (fun b => b.attemptId = fence.attemptId) f s.attempts)
    (operation_key : ∀ p, (g p).jobId = p.jobId)
    (attempt_key : ∀ b, (f b).operationId = b.operationId) : Frozen s t id := by
  refine frozen_of_filters ?_ ?_ ?_
  · rcases jobs with jobs | jobs
    · rw [jobs]
    · rw [jobs]
      refine jobs_other (fun _ => rfl) ?_
      intro j _ hit
      rw [of_decide_eq_true hit]
      exact other
  · rw [operationsOf,operationsOf,operations]
    refine operations_other operation_key ?_
    intro p mem hit
    exact rows.operation_other wf other mem (of_decide_eq_true hit)
  · rw [attempts]
    refine attempts_other attempt_key ?_
    intro b mem hit
    exact rows.misses wf other mem (of_decide_eq_true hit)

theorem settle_frozen (wf : s.WellFormed) (lease : s.attemptContext now fence = some context)
    (other : context.jobId ≠ id) (settlement : AttemptSettlement) :
    Frozen s (s.settle fence context settlement) id := by
  obtain ⟨a,o,j,rows⟩ := leaseRows lease
  cases settlement with
  | succeeded =>
    simp only [settle,settleSuccess]
    split
    · exact settled_frozen wf rows other .succeeded (.inl rfl) rfl rfl (fun _ => rfl)
        (fun _ => rfl)
    · exact settled_frozen wf rows other .succeeded (.inr rfl) rfl rfl (fun _ => rfl)
        (fun _ => rfl)
  | failed failure =>
    simp only [settle,settleFailure]
    split
    · exact settled_frozen wf rows other .failed (.inl rfl) rfl rfl (fun _ => rfl)
        (fun _ => rfl)
    · exact settled_frozen wf rows other .failed (.inr rfl) rfl rfl (fun _ => rfl)
        (fun _ => rfl)

theorem claimed_frozen {request : ClaimRequest} {attemptId : AttemptId} {operation : OperationRow}
    {selection : RecoverySelection} {row : AttemptRow} (wf : s.WellFormed)
    (recoverable : Recoverable now s job operation) (other : job.jobId ≠ id)
    (claim : Claimed now request attemptId s job operation selection row t) : Frozen s t id := by
  have jobs : (s.startJob job.jobId).jobs.filter (fun j => j.jobId = id) =
      s.jobs.filter (fun j => j.jobId = id) := by
    refine jobs_other (fun _ => rfl) ?_
    intro j _ hit
    rw [(of_decide_eq_true hit).1]
    exact other
  have operations : ((s.setOperationStatus operation.operationId .running).operations.filter
      (fun o => o.jobId = id)) = s.operations.filter (fun o => o.jobId = id) := by
    refine operations_other (fun _ => rfl) ?_
    intro o mem hit
    obtain rfl := wf.operation_eq recoverable.operation_mem mem
      (of_decide_eq_true hit).symm
    rw [recoverable.owned]
    exact other
  have unowned : ∀ a : AttemptRow, a.operationId = operation.operationId →
      s.ownsAttempt id a = false := by
    intro a owner
    by_contra owned
    refine other ?_
    rw [← recoverable.owned]
    exact ownsAttempt_unique wf recoverable.operation_mem owner.symm (by simpa using owned)
  cases claim with
  | started _ _ _ row_eq =>
    refine frozen_of_filters jobs operations ?_
    subst row_eq
    change (s.attempts ++ [_]).filter (s.ownsAttempt id) = _
    rw [List.filter_append,List.filter_singleton,unowned _ rfl]
    exact List.append_nil _
  | reclaimed latest previous _ latest_eq _ =>
    refine frozen_of_filters jobs operations ?_
    refine attempts_other (fun _ => rfl) ?_
    intro a mem hit
    obtain ⟨latest_mem,owner⟩ := mem_attemptsOf.mp (List.argmax_mem latest_eq)
    obtain rfl := wf.attempt_eq latest_mem mem
      (AttemptRow.lapsed_iff.mp hit).1.symm
    exact unowned _ owner

end Store

end Coordinator
