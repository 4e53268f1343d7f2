import Factory.Coordinator.JobLifecycle

namespace Coordinator

open Result Table Option EnvironmentRow

namespace Tenancy

inductive Moves (continued : Bool) : Option Tenancy → Option Tenancy → Prop where
  | absent : Moves continued none none
  | submitted : Moves continued none (some ⟨.queued, none⟩)
  | moved {x y : Tenancy} (step : Step continued x y) : Moves continued (some x) (some y)

end Tenancy

namespace Store

open Tenancy

def tenancy (s : Store) (jobId : JobId) : Option Tenancy :=
  (s.findJob jobId).map (fun job => ⟨job.status, s.findEnvironment jobId⟩)

def Refines (continued : Option JobId) (s t : Store) : Prop :=
  ∀ jobId, Moves (decide (continued = some jobId)) (s.tenancy jobId) (t.tenancy jobId)

structure Keyed (s : Store) : Prop where
  unique : (s.environments.map (·.jobId)).Nodup
  owned : ∀ jobId, s.findJob jobId = none → s.findEnvironment jobId = none

variable {now : Timestamp} {s t : Store} {target : JobId}

variable {e : EnvironmentRow} {context : AttemptContextRow} {fence : AttemptFence}
  {row : EnvironmentRow} {guard : EnvironmentRow → Bool} {f : EnvironmentRow → EnvironmentRow}
  {environments : List EnvironmentRow}

theorem findEnvironment_some {jobId : JobId} (h : s.findEnvironment jobId = some e) :
    e ∈ s.environments ∧ e.jobId = jobId :=
  ⟨List.mem_of_find?_eq_some h,by simpa using List.find?_some h⟩

theorem Keyed.find (h : s.Keyed) (he : e ∈ s.environments) :
    s.findEnvironment e.jobId = some e :=
  find_key jobId h.unique he

structure Local (s t : Store) (target : JobId) (pj : JobRow → Bool) (fj : JobRow → JobRow)
    (pe : EnvironmentRow → Bool) (fe : EnvironmentRow → EnvironmentRow) : Prop where
  jobs : t.jobs = updateWhere pj fj s.jobs
  environments : t.environments = updateWhere pe fe s.environments
  jobKey : ∀ j, (fj j).jobId = j.jobId
  environmentKey : ∀ e, (fe e).jobId = e.jobId
  jobHit : ∀ j, pj j = true → j.jobId = target
  environmentHit : ∀ e, pe e = true → e.jobId = target

namespace Local

variable {pj : JobRow → Bool} {fj : JobRow → JobRow} {pe : EnvironmentRow → Bool}
  {fe : EnvironmentRow → EnvironmentRow}

section Reading

variable (h : Local s t target pj fj pe fe)

include h

theorem findJob (jobId : JobId) :
    t.findJob jobId = (s.findJob jobId).map (fun j => if pj j then fj j else j) := by
  rw [Store.findJob,h.jobs]
  refine find_map_key JobRow.jobId fun j => ?_
  split
  · exact h.jobKey j
  · rfl

theorem findEnvironment (jobId : JobId) :
    t.findEnvironment jobId =
      (s.findEnvironment jobId).map (fun e => if pe e then fe e else e) := by
  rw [Store.findEnvironment,h.environments]
  refine find_map_key EnvironmentRow.jobId fun e => ?_
  split
  · exact h.environmentKey e
  · rfl

theorem tenancy_target {job : JobRow} (found : s.findJob target = some job) :
    t.tenancy target = some ⟨(if pj job then fj job else job).status,
      (s.findEnvironment target).map (fun e => if pe e then fe e else e)⟩ := by
  rw [tenancy,h.findJob,found,h.findEnvironment]
  rfl

theorem tenancy_other {jobId : JobId} (other : jobId ≠ target) :
    t.tenancy jobId = s.tenancy jobId := by
  have job : t.findJob jobId = s.findJob jobId := by
    rw [h.findJob]
    cases found : s.findJob jobId with
    | none => rfl
    | some j =>
      have miss : ¬ pj j = true := fun hit =>
        other ((findJob_some found).2.symm.trans (h.jobHit j hit))
      rw [map_some,if_neg miss]
  have environment : t.findEnvironment jobId = s.findEnvironment jobId := by
    rw [h.findEnvironment]
    cases found : s.findEnvironment jobId with
    | none => rfl
    | some e =>
      have miss : ¬ pe e = true := fun hit =>
        other ((findEnvironment_some found).2.symm.trans (h.environmentHit e hit))
      rw [map_some,if_neg miss]
  rw [tenancy,tenancy,job,environment]

theorem refines {continued : Option JobId}
    (others : ∀ jobId, jobId ≠ target → continued ≠ some jobId)
    (step : ∀ job, s.findJob target = some job →
      Step (decide (continued = some target)) ⟨job.status, s.findEnvironment target⟩
        ⟨(if pj job then fj job else job).status,
          (s.findEnvironment target).map (fun e => if pe e then fe e else e)⟩) :
    Refines continued s t := by
  intro jobId
  by_cases same : jobId = target
  · subst same
    cases found : s.findJob jobId with
    | none =>
      have before : s.tenancy jobId = none := by rw [tenancy,found,map_none]
      have after : t.tenancy jobId = none := by
        rw [tenancy,h.findJob,found,map_none,map_none]
      rw [before,after]
      exact .absent
    | some job =>
      have before : s.tenancy jobId = some ⟨job.status,s.findEnvironment jobId⟩ := by
        rw [tenancy,found,map_some]
      rw [before,h.tenancy_target found]
      exact .moved (step job found)
  · rw [h.tenancy_other same,decide_eq_false (others jobId same)]
    cases s.tenancy jobId with
    | none => exact .absent
    | some x => exact .moved (.stay x)

theorem keyed (keyed : s.Keyed) : t.Keyed := by
  refine ⟨?_,fun jobId absent => ?_⟩
  · rw [h.environments,map_updateWhere fun e _ _ => h.environmentKey e]
    exact keyed.unique
  · rw [h.findJob,map_eq_none_iff] at absent
    rw [h.findEnvironment,keyed.owned jobId absent,map_none]

end Reading

end Local

theorem refines_same (jobs : t.jobs = s.jobs) (environments : t.environments = s.environments) :
    Refines none s t := by
  intro jobId
  have same : t.tenancy jobId = s.tenancy jobId := by
    simp only [tenancy,findJob,findEnvironment,jobs,environments]
  rw [same]
  cases s.tenancy jobId with
  | none => exact .absent
  | some x => exact .moved (.stay x)

theorem keyed_same (jobs : t.jobs = s.jobs) (environments : t.environments = s.environments)
    (keyed : s.Keyed) : t.Keyed := by
  obtain ⟨unique,owned⟩ := keyed
  refine ⟨environments ▸ unique,?_⟩
  simp only [findJob,findEnvironment,jobs,environments] at *
  exact owned

theorem Sound.lease_running (h : s.Sound) (lease : s.attemptContext now fence = some context)
    (opened : context.jobStatus ≠ .cancelling) {job : JobRow}
    (found : s.findJob context.jobId = some job) : job.status = .running := by
  obtain ⟨a,o,j,rows⟩ := leaseRows lease
  obtain ⟨member,same⟩ := findJob_some found
  rw [rows.context_eq] at same opened
  obtain rfl : job = j := h.wellFormed.job_eq member rows.job_mem
    (same.trans rows.job_eq.symm)
  have running : a ∈ s.runningAttempts job.jobId :=
    mem_runningAttempts.mpr ⟨rows.attempt_mem,rows.running,o,
      mem_operationsOf.mpr ⟨rows.operation_mem,rows.job_eq.symm⟩,rows.operation_eq.symm⟩
  obtain ⟨_,attempt⟩ := h.runningAttempt member running
  rcases attempt.job_status with status | status
  · exact status
  · exact absurd status opened

def Preserves (continued : Option JobId) (s t : Store) : Prop := Refines continued s t ∧ t.Keyed

theorem reactivate_environments
    (result : s.reactivateInTransaction target = .ok { s with environments := environments }) :
    environments = updateWhere (fun e => e.jobId = target ∧
      decide (e.desiredState = .released ∧ e.status = .released)) reactivate
      s.environments := by
  rcases reactivateInTransaction_ok result with ⟨_,rows⟩ | ⟨absent,rows⟩
  · exact congrArg Store.environments rows
  · have same : environments = s.environments := congrArg Store.environments rows
    rw [same,updateWhere_none fun e he => by simp [absent e he]]

theorem Local.of_environments (updated : s.updateEnvironment target guard f = (some row, t))
    (key : ∀ e, (f e).jobId = e.jobId) :
    Local s t target (fun _ => false) id (fun e => e.jobId = target ∧ guard e) f := by
  obtain ⟨_,_,_,_,_,rfl⟩ := updateEnvironment_some updated
  exact ⟨(updateWhere_id _ _).symm,rfl,fun _ => rfl,key,nofun,
    fun e hit => (of_decide_eq_true hit).1⟩

theorem findEnvironment_absent {jobId : JobId} (absent : ∀ e ∈ s.environments, e.jobId ≠ jobId) :
    s.findEnvironment jobId = none :=
  List.find?_eq_none.mpr fun e he => by simpa using absent e he

variable (keyed : s.Keyed)

include keyed

theorem preserves_same (jobs : t.jobs = s.jobs)
    (environments : t.environments = s.environments) : Preserves none s t :=
  ⟨refines_same jobs environments,keyed_same jobs environments keyed⟩

theorem Local.preserves {pj : JobRow → Bool} {fj : JobRow → JobRow} {pe : EnvironmentRow → Bool}
    {fe : EnvironmentRow → EnvironmentRow} (h : Local s t target pj fj pe fe)
    (step : ∀ job, s.findJob target = some job →
      Step false ⟨job.status, s.findEnvironment target⟩
        ⟨(if pj job then fj job else job).status,
          (s.findEnvironment target).map (fun e => if pe e then fe e else e)⟩) :
    Preserves none s t :=
  ⟨h.refines (fun _ _ => nofun) step,h.keyed keyed⟩

theorem updateEnvironment_preserves
    (updated : s.updateEnvironment target guard f = (some row, t))
    (key : ∀ e, (f e).jobId = e.jobId)
    (step : ∀ job e, s.findJob target = some job → guard e = true →
      Step false ⟨job.status, some e⟩ ⟨job.status, some (f e)⟩) :
    Preserves none s t := by
  refine (Local.of_environments updated key).preserves keyed fun job found => ?_
  obtain ⟨e,member,rfl,holds,_⟩ := updateEnvironment_some updated
  rw [keyed.find member,map_some]
  simpa only [holds,and_self,decide_true,if_true,Bool.false_eq_true,if_false] using
    step job e found holds

theorem created_preserves (new : EnvironmentRow)
    (absent : ∀ e ∈ s.environments, e.jobId ≠ new.jobId)
    (running : ∀ job, s.findJob new.jobId = some job → job.status = .running)
    (found : ∃ job, s.findJob new.jobId = some job) (generation : new.generation = 1)
    (active : new.desiredState = .active) (provisioning : new.status = .provisioning) :
    Preserves none s { s with environments := s.environments ++ [new] } := by
  obtain ⟨job,found⟩ := found
  have find : ∀ jobId, Store.findEnvironment { s with environments := s.environments ++ [new] }
      jobId = (s.findEnvironment jobId).or (if new.jobId = jobId then some new else none) := by
    intro jobId
    simp only [Store.findEnvironment,List.find?_append,List.find?_singleton,decide_eq_true_eq]
  refine ⟨fun jobId => ?_,nodup_concat keyed.unique absent,fun jobId none => ?_⟩
  · by_cases same : new.jobId = jobId
    · subst same
      have before : s.tenancy new.jobId = some ⟨.running,none⟩ := by
        rw [tenancy,found,findEnvironment_absent absent,map_some,running job found]
      have after : Store.tenancy { s with environments := s.environments ++ [new] } new.jobId =
          some ⟨.running,some new⟩ := by
        rw [tenancy,find,findEnvironment_absent absent,if_pos rfl]
        change (s.findJob new.jobId).map _ = _
        rw [found,map_some,running job found,none_or]
      rw [before,after]
      exact .moved (.created generation active provisioning)
    · have after : Store.tenancy { s with environments := s.environments ++ [new] } jobId =
          s.tenancy jobId := by
        rw [tenancy,find,if_neg same,or_none]
        rfl
      rw [after]
      cases s.tenancy jobId with
      | none => exact .absent
      | some x => exact .moved (.stay x)
  · have other : new.jobId ≠ jobId := fun same => by
      rw [← same] at none
      exact absurd (found.symm.trans none) (by simp)
    rw [find,if_neg other,keyed.owned jobId none,or_none]

theorem submitted_preserves (fresh : ∀ job ∈ s.jobs, job.jobId ≠ target)
    {new : JobRow} (key : new.jobId = target) (queued : new.status = .queued)
    (jobs : t.jobs = s.jobs ++ [new]) (environments : t.environments = s.environments) :
    Preserves none s t := by
  subst key
  have find : ∀ jobId, t.findJob jobId =
      (s.findJob jobId).or (if new.jobId = jobId then some new else none) := by
    intro jobId
    simp only [Store.findJob,jobs,List.find?_append,List.find?_singleton,decide_eq_true_eq]
  have environment : ∀ jobId, t.findEnvironment jobId = s.findEnvironment jobId := by
    intro jobId
    rw [findEnvironment,findEnvironment,environments]
  have absent : s.findJob new.jobId = none :=
    List.find?_eq_none.mpr fun job hjob => by simpa using fresh job hjob
  refine ⟨fun jobId => ?_,environments ▸ keyed.unique,fun jobId none => ?_⟩
  · by_cases same : new.jobId = jobId
    · subst same
      have before : s.tenancy new.jobId = none := by rw [tenancy,absent,map_none]
      have after : t.tenancy new.jobId = some ⟨.queued,none⟩ := by
        rw [tenancy,find,absent,if_pos rfl,environment,keyed.owned _ absent,none_or,
          map_some,queued]
      rw [before,after]
      exact .submitted
    · have after : t.tenancy jobId = s.tenancy jobId := by
        rw [tenancy,tenancy,find,if_neg same,or_none,environment]
      rw [after]
      cases s.tenancy jobId with
      | none => exact .absent
      | some x => exact .moved (.stay x)
  · rw [find,or_eq_none_iff] at none
    rw [environment]
    exact keyed.owned jobId none.1

theorem EnvironmentChange.preserves (change : EnvironmentChange now s t) (sound : s.Sound) :
    Preserves none s t := by
  cases change with
  | created fence context backend environmentId lease open_job absent =>
    obtain ⟨job,found,same,status⟩ := attemptContext_job lease
    rw [same] at found
    exact created_preserves keyed _ absent
      (fun job found => sound.lease_running lease open_job found) ⟨job,found⟩ rfl rfl rfl
  | reported fence context guard report row t lease open_job active updated =>
    refine updateEnvironment_preserves keyed updated (fun e => by cases report <;> rfl) ?_
    intro job e found holds
    rw [sound.lease_running lease open_job found]
    exact .reported report (active e holds)
  | releaseRequested job guard row t found closing updated =>
    refine updateEnvironment_preserves keyed updated (fun _ => rfl) ?_
    intro job' e found' _
    obtain rfl : job' = job := some.inj (found'.symm.trans found)
    exact .releaseRequested e closing
  | released jobId generation row t updated =>
    refine updateEnvironment_preserves keyed updated (fun _ => rfl) ?_
    intro job e _ holds
    exact .released job.status (of_decide_eq_true holds).2

theorem finishJob_preserves {status : JobState}
    (working : ∀ job, s.findJob target = some job → job.status.Working)
    (terminal : status.Terminal)
    (jobs : t.jobs = updateWhere (fun j => j.jobId = target) ({ · with status := status }) s.jobs)
    (environments : t.environments =
      updateWhere (fun e => e.jobId = target) requestRelease s.environments) :
    Preserves none s t := by
  have change : Local s t target (fun j => j.jobId = target) ({ · with status := status })
      (fun e => e.jobId = target) requestRelease :=
    ⟨jobs,environments,fun _ => rfl,fun _ => rfl,fun _ => of_decide_eq_true,
      fun _ => of_decide_eq_true⟩
  refine change.preserves keyed fun job found => ?_
  have released : (s.findEnvironment target).map
      (fun e => if decide (e.jobId = target) = true then e.requestRelease else e) =
      (s.findEnvironment target).map requestRelease := by
    cases row : s.findEnvironment target with
    | none => rfl
    | some e => simp only [map_some,(findEnvironment_some row).2,decide_true,if_true]
  rw [released,if_pos (decide_eq_true (findJob_some found).2)]
  exact .finished _ (working job found) terminal

theorem setJobStatus_preserves {status : JobState}
    (jobs : t.jobs = updateWhere (fun j => j.jobId = target) ({ · with status := status }) s.jobs)
    (environments : t.environments = s.environments)
    (step : ∀ job, s.findJob target = some job →
      Step false ⟨job.status, s.findEnvironment target⟩ ⟨status, s.findEnvironment target⟩) :
    Preserves none s t := by
  have change : Local s t target (fun j => j.jobId = target) ({ · with status := status })
      (fun _ => false) id :=
    ⟨jobs,environments.trans (updateWhere_id _ _).symm,fun _ => rfl,fun _ => rfl,
      fun _ => of_decide_eq_true,nofun⟩
  refine change.preserves keyed fun job found => ?_
  rw [if_pos (decide_eq_true (findJob_some found).2)]
  simpa only [Bool.false_eq_true,if_false,map_id'] using step job found

theorem cancelJob_preserves (result : s.cancelJob target = .ok t) :
    Preserves none s t := by
  obtain ⟨job,found,⟨_,rfl⟩ | ⟨working,_,rfl⟩ | ⟨working,_,rfl⟩⟩ := cancelJob_ok result
  · exact preserves_same keyed rfl rfl
  · refine setJobStatus_preserves keyed rfl rfl fun job' found' => ?_
    obtain rfl : job' = job := some.inj (found'.symm.trans found)
    exact .cancelling _ working
  · refine finishJob_preserves keyed (fun job' found' => ?_) (Or.inr (Or.inr rfl)) rfl rfl
    obtain rfl : job' = job := some.inj (found'.symm.trans found)
    exact working

theorem acknowledge_preserves
    (result : s.acknowledgeJobCancellation now fence = .ok t) : Preserves none s t := by
  obtain ⟨context,lease,status,released,rfl⟩ := acknowledgeJobCancellation_ok result
  obtain ⟨job,found,same,jobStatus⟩ := attemptContext_job lease
  rw [same] at found
  refine @setJobStatus_preserves s _ context.jobId keyed .cancelled rfl rfl fun job' found' => ?_
  obtain rfl : job' = job := some.inj (found'.symm.trans found)
  rw [jobStatus,status]
  exact .acknowledged released

theorem settle_preserves (sound : s.Sound)
    (lease : s.attemptContext now fence = some context) (opened : context.jobStatus ≠ .cancelling)
    (settlement : AttemptSettlement) :
    Preserves none s (s.settle fence context settlement) := by
  have working : ∀ job, s.findJob context.jobId = some job → job.status.Working :=
    fun job found => Or.inr (sound.lease_running lease opened found)
  cases settlement with
  | succeeded =>
    by_cases remaining : ((s.setAttempt fence.attemptId
        ({ · with status := .succeeded })).setOperationStatus context.operationId
        .succeeded).hasRemaining context.jobId = true
    · simp only [settle,settleSuccess]
      rw [if_pos remaining]
      exact preserves_same keyed rfl rfl
    · simp only [settle,settleSuccess]
      rw [if_neg remaining]
      exact finishJob_preserves keyed working (Or.inl rfl) rfl rfl
  | failed failure =>
    simp only [settle,settleFailure]
    split
    · exact preserves_same keyed rfl rfl
    · exact finishJob_preserves keyed working (Or.inr (Or.inl rfl)) rfl rfl

theorem startJob_preserves (jobs : t.jobs = (s.startJob target).jobs)
    (environments : t.environments = s.environments) : Preserves none s t := by
  have change : Local s t target _ _ (fun _ => false) id :=
    ⟨jobs,environments.trans (updateWhere_id _ _).symm,fun _ => rfl,fun _ => rfl,
      fun _ hit => (of_decide_eq_true hit).1,nofun⟩
  refine change.preserves keyed fun job found => ?_
  simp only [Bool.false_eq_true,if_false,map_id',(findJob_some found).2,true_and]
  cases status : job.status with
  | queued => simpa [status] using Step.worked _ (Or.inl rfl) (Or.inr rfl)
  | running => simpa [status] using Step.worked _ (Or.inr rfl) (Or.inr rfl)
  | cancelling | succeeded | failed | cancelled => simpa [status] using Step.stay _

theorem reactivate_released
    (result : s.reactivateInTransaction target = .ok { s with environments := environments })
    (found : s.findEnvironment target = some e) :
    e.desiredState = .released ∧ e.status = .released := by
  obtain ⟨member,key⟩ := findEnvironment_some found
  rcases reactivateInTransaction_ok result with ⟨⟨row,hrow,same,released⟩,_⟩ | ⟨absent,_⟩
  · rwa [← List.inj_on_of_nodup_map keyed.unique hrow member (same.trans key.symm)]
  · exact absurd key (absent e member)

theorem continueJob_preserves {feedback : String} {newId : Nat → OperationId}
    (result : s.continueJob now target feedback newId = .ok t) :
    Preserves (some target) s t := by
  obtain ⟨job,round,input,environments,found,_,succeeded,_,reactivated,_,_,rfl⟩ :=
    continueJob_ok result
  have change := Local.mk (s := s) (t := { s with
      environments := environments
      jobs := updateWhere (fun j => j.jobId = target)
        ({ · with input := input, status := .queued }) s.jobs
      operations := s.operations ++ operationRows now target newId
        (continuationOperations (Text.trim feedback) round) (s.nextOrdinal target) })
    rfl (reactivate_environments reactivated) (fun _ => rfl) (fun _ => rfl)
    (fun _ => of_decide_eq_true) (fun _ hit => (of_decide_eq_true hit).1)
  refine ⟨change.refines (fun jobId other same => other (some.inj same).symm) ?_,
    change.keyed keyed⟩
  intro job' found'
  obtain rfl : job' = job := some.inj (found'.symm.trans found)
  have released : ∀ e ∈ s.findEnvironment target, e.status = .released := fun e he =>
    (reactivate_released keyed reactivated he).2
  have rows : (s.findEnvironment target).map (fun e =>
      if decide (e.jobId = target ∧
        decide (e.desiredState = .released ∧ e.status = .released) = true) = true
      then e.reactivate else e) = (s.findEnvironment target).map reactivate := by
    cases row : s.findEnvironment target with
    | none => rfl
    | some e => simp [(findEnvironment_some row).2,reactivate_released keyed reactivated row]
  rw [rows,if_pos (decide_eq_true (findJob_some found).2),succeeded,decide_eq_true rfl]
  exact .continued _ released

theorem Transition.preserves {continued : Option JobId} {fences : List AttemptFence}
    (h : Transition now s continued fences t) (sound : s.Sound) :
    Preserves continued s t := by
  cases h with
  | idle | leased => exact preserves_same keyed rfl rfl
  | environment _ change => exact change.preserves keyed sound
  | created _ _ _ _ result =>
    obtain ⟨_,_,fresh,_,rfl⟩ := createJob_ok result
    exact submitted_preserves keyed fresh rfl rfl rfl rfl
  | continued _ _ _ _ result => exact continueJob_preserves keyed result
  | cancelled _ _ result => exact cancelJob_preserves keyed result
  | acknowledged _ _ result => exact acknowledge_preserves keyed result
  | settled _ _ settlement lease open_job =>
    exact settle_preserves keyed sound lease open_job settlement
  | claimed _ _ _ _ _ _ _ _ _ claim =>
    cases claim with
    | started | reclaimed => exact startJob_preserves keyed rfl rfl

end Store

end Coordinator
