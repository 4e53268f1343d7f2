import Factory.Coordinator.Tenancy
import Factory.Coordinator.EnvironmentEffects
import Factory.Coordinator.RecoveryEffects

namespace Coordinator

open Result Table

def OperationRow.key (o : OperationRow) : OperationId × JobId × Nat :=
  (o.operationId, o.jobId, o.ordinal)

def AttemptRow.key (a : AttemptRow) : AttemptId × OperationId × Nat :=
  (a.attemptId, a.operationId, a.attemptNumber)

def Command.provisions : Command → Bool
  | .ensureExecutionEnvironment .. | .reserveExecutionEnvironmentLocator ..
  | .requestCancellingExecutionEnvironmentRelease _ | .markExecutionEnvironmentReady ..
  | .markExecutionEnvironmentFailed .. | .requestExecutionEnvironmentRelease ..
  | .markExecutionEnvironmentReleased .. => true
  | _ => false

def Command.annotates : Command → Bool
  | .putWorkspace _ | .markWorkspaceRemoved _ | .appendCorrelation .. | .saveCheckpoint ..
  | .putThreadState .. | .appendJobEvent _ | .appendAttemptEvent .. => true
  | _ => false

def Command.advances : Command → Option AttemptFence
  | .settleAttempt fence _ _ _ _
  | .ensureExecutionEnvironment fence _ _
  | .reserveExecutionEnvironmentLocator fence _ _
  | .markExecutionEnvironmentReady fence _ _ _
  | .markExecutionEnvironmentFailed fence _ _ => some fence
  | _ => none

namespace Store

inductive EnvironmentChange (now : Timestamp) (s : Store) : Store → Prop where
  | created (fence : AttemptFence) (context : AttemptContextRow) (backend : String)
      (environmentId : ExecutionEnvironmentId)
      (lease : s.attemptContext now fence = some context)
      (open_job : context.jobStatus ≠ .cancelling)
      (absent : ∀ e ∈ s.environments, e.jobId ≠ context.jobId) :
      EnvironmentChange now s
        { s with
          environments := s.environments ++
            [⟨context.jobId, environmentId, backend, 1, .active, .provisioning, none, none,
              none⟩] }
  | reported (fence : AttemptFence) (context : AttemptContextRow)
      (guard : EnvironmentRow → Bool) (report : EnvironmentReport)
      (row : EnvironmentRow) (t : Store)
      (lease : s.attemptContext now fence = some context)
      (open_job : context.jobStatus ≠ .cancelling)
      (active : ∀ e, guard e = true → e.desiredState = .active)
      (updated : s.updateEnvironment context.jobId guard report.apply = (some row, t)) :
      EnvironmentChange now s t
  | releaseRequested (job : JobRow) (guard : EnvironmentRow → Bool) (row : EnvironmentRow)
      (t : Store) (found : s.findJob job.jobId = some job)
      (closing : job.status = .cancelling ∨ job.status = .succeeded ∨ job.status = .failed ∨
        job.status = .cancelled)
      (updated : s.updateEnvironment job.jobId guard EnvironmentRow.requestRelease =
        (some row, t)) :
      EnvironmentChange now s t
  | released (jobId : JobId) (generation : Nat) (row : EnvironmentRow) (t : Store)
      (updated : s.updateEnvironment jobId
        (fun e => e.generation = generation ∧ e.desiredState = .released)
        EnvironmentRow.markReleased = (some row, t)) :
      EnvironmentChange now s t

inductive Transition (now : Timestamp) (s : Store) :
    Option JobId → List AttemptFence → Store → Prop where
  | idle : Transition now s none [] s
  | environment (t : Store) (change : EnvironmentChange now s t) : Transition now s none [] t
  | leased (fence : AttemptFence) (row : AttemptRow) (expiry : Timestamp)
      (found : s.attempts.find? (AttemptRow.holds now fence) = some row) :
      Transition now s none []
        { s with
          attempts := updateWhere (AttemptRow.holds now fence)
            ({ · with leaseExpiresAt := expiry }) s.attempts }
  | created (definition : JobDefinition) (jobId : JobId) (newId : Nat → OperationId) (t : Store)
      (result : s.createJob now definition jobId newId = .ok t) : Transition now s none [] t
  | continued (jobId : JobId) (feedback : String) (newId : Nat → OperationId) (t : Store)
      (result : s.continueJob now jobId feedback newId = .ok t) :
      Transition now s (some jobId) [] t
  | cancelled (jobId : JobId) (t : Store) (result : s.cancelJob jobId = .ok t) :
      Transition now s none [] t
  | acknowledged (fence : AttemptFence) (t : Store)
      (result : s.acknowledgeJobCancellation now fence = .ok t) : Transition now s none [] t
  | settled (fence : AttemptFence) (context : AttemptContextRow) (settlement : AttemptSettlement)
      (lease : s.attemptContext now fence = some context)
      (open_job : context.jobStatus ≠ .cancelling) :
      Transition now s none [] (s.settle fence context settlement)
  | claimed (request : ClaimRequest) (attemptId : AttemptId) (job : JobRow)
      (operation : OperationRow) (selection : RecoverySelection) (row : AttemptRow) (t : Store)
      (recoverable : Recoverable now s job operation)
      (selected : s.recoverySelection job operation = .ok selection)
      (claim : Claimed now request attemptId s job operation selection row t) :
      Transition now s none [row.fence] t

def Agrees (t s : Store) : Prop :=
  s.jobs = t.jobs ∧ s.operations = t.operations ∧ s.attempts = t.attempts ∧
    s.environments = t.environments

theorem settle_agrees (s : Store) (checkpoints : List CheckpointRecord)
    (fence : AttemptFence) (context : AttemptContextRow) (settlement : AttemptSettlement) :
    Agrees (s.settle fence context settlement)
      ({ s with checkpoints := checkpoints }.settle fence context settlement) := by
  cases settlement with
  | succeeded =>
    by_cases h : ((s.setAttempt fence.attemptId
        ({ · with status := .succeeded })).setOperationStatus context.operationId
        .succeeded).hasRemaining context.jobId = true
    · simp only [settle,settleSuccess]
      rw [if_pos h,if_pos (by exact h)]
      exact ⟨rfl,rfl,rfl,rfl⟩
    · simp only [settle,settleSuccess]
      rw [if_neg h,if_neg (by exact h)]
      exact ⟨rfl,rfl,rfl,rfl⟩
  | failed failure =>
    simp only [settle,settleFailure,setAttempt]
    split <;> exact ⟨rfl,rfl,rfl,rfl⟩

variable {now : Timestamp} {s s' : Store} {command : Command} {response : Response}
  {fence : AttemptFence}

theorem settleAttemptWithEvent_agrees {settlement : AttemptSettlement}
    {checkpoint : Option NewCheckpoint} {completionEvent : Option NewAttemptEvent}
    {checkpointId : CheckpointId} {record : Option CheckpointRecord}
    (h : s.settleAttemptWithEvent now fence settlement checkpoint completionEvent checkpointId =
      .ok (record, s')) :
    ∃ context, s.attemptContext now fence = some context ∧ context.jobStatus ≠ .cancelling ∧
      Agrees (s.settle fence context settlement) s' := by
  obtain ⟨context,s1,events,nextSequence,_,hcontext,hstatus,hcheckpoint,rfl⟩ :=
    settleAttemptWithEvent_ok h
  refine ⟨context,hcontext,hstatus,?_⟩
  have hs1 : ∃ checkpoints, s1 = { s with checkpoints := checkpoints } := by
    rcases insertOptionalCheckpoint_ok hcheckpoint with ⟨_,_,rfl⟩ | ⟨_,_,_,_,hinsert⟩
    · exact ⟨_,rfl⟩
    · exact ⟨_,(insertCheckpoint_ok hinsert).2.2.2⟩
  obtain ⟨checkpoints,rfl⟩ := hs1
  exact settle_agrees s checkpoints fence context settlement

theorem findJob_some {jobId : JobId} {job : JobRow} (h : s.findJob jobId = some job) :
    job ∈ s.jobs ∧ job.jobId = jobId :=
  ⟨List.mem_of_find?_eq_some h,by simpa using List.find?_some h⟩

theorem findOperation_some {operationId : OperationId} {operation : OperationRow}
    (h : s.findOperation operationId = some operation) :
    operation ∈ s.operations ∧ operation.operationId = operationId :=
  ⟨List.mem_of_find?_eq_some h,by simpa using List.find?_some h⟩

theorem exec_fenced (hfence : command.fence = some fence)
    (h : s.exec now command = .ok (response, s')) :
    (∃ a, s.attempts.find? (AttemptRow.holds now fence) = some a) ∧
      (command.advances.isSome = true → ∃ context, s.attemptContext now fence = some context ∧
        context.jobStatus ≠ .cancelling) := by
  have locked : ∀ {context}, s.attemptContext now fence = some context →
      ∃ a, s.attempts.find? (AttemptRow.holds now fence) = some a := by
    intro context hcontext
    obtain ⟨a,_,_,ha,_⟩ := attemptContext_some.mp hcontext
    exact ⟨a,ha⟩
  cases command <;> simp only [Command.fence,Option.some.injEq,reduceCtorEq] at hfence
  all_goals
    subst hfence
    simp only [exec,map_ok,Prod.exists,Prod.map,Prod.mk.injEq,id] at h
  case acknowledgeJobCancellation =>
    obtain ⟨t,h,_⟩ := h
    obtain ⟨_,hcontext,_⟩ := acknowledgeJobCancellation_ok h
    exact ⟨locked hcontext,nofun⟩
  case renewAttempt =>
    obtain ⟨t,h,_⟩ := h
    exact ⟨(renewAttempt_ok h).1,nofun⟩
  case relinquishAttempt =>
    obtain ⟨t,h,_⟩ := h
    exact ⟨(relinquishAttempt_ok h).1,nofun⟩
  case appendCorrelation =>
    obtain ⟨_,t,h,_⟩ := h
    obtain ⟨_,⟨_,hcontext⟩,_⟩ := appendCorrelation_ok h
    exact ⟨locked hcontext,nofun⟩
  case saveCheckpoint =>
    obtain ⟨_,t,h,_⟩ := h
    obtain ⟨_,⟨_,hcontext⟩,_⟩ := saveCheckpoint_ok h
    exact ⟨locked hcontext,nofun⟩
  case putThreadState =>
    obtain ⟨t,h,_⟩ := h
    obtain ⟨⟨_,hcontext⟩,_⟩ := putThreadState_ok h
    exact ⟨locked hcontext,nofun⟩
  case appendAttemptEvent =>
    obtain ⟨_,t,h,_⟩ := h
    obtain ⟨_,hcontext,_⟩ := appendAttemptEvent_ok h
    exact ⟨locked hcontext,nofun⟩
  case requestCancellingExecutionEnvironmentRelease =>
    obtain ⟨_,t,h,_⟩ := h
    obtain ⟨_,hcontext,_⟩ := requestCancellingExecutionEnvironmentRelease_ok h
    exact ⟨locked hcontext,nofun⟩
  case settleAttempt =>
    obtain ⟨_,t,h,_⟩ := h
    obtain ⟨_,hcontext,hstatus,_⟩ := settleAttemptWithEvent_agrees h
    exact ⟨locked hcontext,fun _ => ⟨_,hcontext,hstatus⟩⟩
  case ensureExecutionEnvironment =>
    obtain ⟨_,t,h,_⟩ := h
    obtain ⟨_,hcontext,hstatus,_⟩ := ensureExecutionEnvironment_ok h
    exact ⟨locked hcontext,fun _ => ⟨_,hcontext,hstatus⟩⟩
  case reserveExecutionEnvironmentLocator =>
    obtain ⟨_,t,h,_⟩ := h
    obtain ⟨_,hcontext,hstatus,_⟩ := reserveExecutionEnvironmentLocator_ok h
    exact ⟨locked hcontext,fun _ => ⟨_,hcontext,hstatus⟩⟩
  case markExecutionEnvironmentReady =>
    obtain ⟨_,t,h,_⟩ := h
    obtain ⟨_,hcontext,hstatus,_⟩ := markExecutionEnvironmentReady_ok h
    exact ⟨locked hcontext,fun _ => ⟨_,hcontext,hstatus⟩⟩
  case markExecutionEnvironmentFailed =>
    obtain ⟨_,t,h,_⟩ := h
    obtain ⟨_,hcontext,hstatus,_⟩ := markExecutionEnvironmentFailed_ok h
    exact ⟨locked hcontext,fun _ => ⟨_,hcontext,hstatus⟩⟩

theorem Agrees.refl (s : Store) : Agrees s s := ⟨rfl,rfl,rfl,rfl⟩

theorem upsertThreadState_agrees (threadId : ThreadId) (state : Json.Value) (s : Store) :
    Agrees s (s.upsertThreadState threadId state) := by
  unfold upsertThreadState
  split <;> exact ⟨rfl,rfl,rfl,rfl⟩

theorem attemptContext_job {context : AttemptContextRow}
    (h : s.attemptContext now fence = some context) :
    ∃ job, s.findJob job.jobId = some job ∧ job.jobId = context.jobId ∧
      job.status = context.jobStatus := by
  obtain ⟨a,o,j,_,_,hjob,rfl⟩ := attemptContext_some.mp h
  have hid := (findJob_some hjob).2
  exact ⟨j,by rw [hid]; exact hjob,hid,rfl⟩

theorem EnvironmentChange.only {t : Store} (h : EnvironmentChange now s t) :
    ∃ environments, t = { s with environments := environments } := by
  cases h with
  | created => exact ⟨_,rfl⟩
  | reported _ _ _ _ _ _ _ _ _ updated | releaseRequested _ _ _ _ _ _ updated
  | released _ _ _ _ updated =>
    obtain ⟨_,_,_,_,_,rfl⟩ := updateEnvironment_some updated
    exact ⟨_,rfl⟩

theorem EnvironmentChange.tables {t : Store} (h : EnvironmentChange now s t) :
    t.jobs = s.jobs ∧ t.operations = s.operations ∧ t.attempts = s.attempts := by
  obtain ⟨_,rfl⟩ := h.only
  exact ⟨rfl,rfl,rfl⟩

theorem exec_provisions (provisions : command.provisions = true)
    (h : s.exec now command = .ok (response, s')) :
    (s' = s ∨ EnvironmentChange now s s') ∧ command.continues = none ∧ response.fences = [] := by
  cases command
  all_goals simp only [exec,map_ok,Prod.exists,Prod.map,Prod.mk.injEq,id] at h
  case ensureExecutionEnvironment fence backend environmentId =>
    obtain ⟨_,t,h,rfl,rfl⟩ := h
    refine ⟨?_,rfl,rfl⟩
    obtain ⟨context,hcontext,hstatus,rfl | ⟨habsent,_,rfl⟩⟩ := ensureExecutionEnvironment_ok h
    · exact .inl rfl
    · exact .inr (.created fence context backend environmentId hcontext hstatus habsent)
  case reserveExecutionEnvironmentLocator fence generation locator =>
    obtain ⟨row,t,h,rfl,rfl⟩ := h
    refine ⟨?_,rfl,rfl⟩
    obtain ⟨context,hcontext,hstatus,rfl | hupdate⟩ := reserveExecutionEnvironmentLocator_ok h
    · exact .inl rfl
    · refine .inr (.reported fence context _ (.locator locator) row t hcontext hstatus ?_ hupdate)
      exact fun e he => (of_decide_eq_true he).2.1
  case requestCancellingExecutionEnvironmentRelease fence =>
    obtain ⟨_,t,h,rfl,rfl⟩ := h
    refine ⟨?_,rfl,rfl⟩
    obtain ⟨context,hcontext,hstatus,rfl | ⟨generation,e,hupdate⟩⟩ :=
      requestCancellingExecutionEnvironmentRelease_ok h
    · exact .inl rfl
    · obtain ⟨job,hjob,hid,hjobStatus⟩ := attemptContext_job hcontext
      rw [← hid] at hupdate
      exact .inr (.releaseRequested job _ e t hjob (.inl (hjobStatus.trans hstatus)) hupdate)
  case markExecutionEnvironmentReady fence generation backendRef url =>
    obtain ⟨row,t,h,rfl,rfl⟩ := h
    obtain ⟨context,hcontext,hstatus,hupdate⟩ := markExecutionEnvironmentReady_ok h
    refine ⟨.inr (.reported fence context _ (.ready backendRef url) row t hcontext hstatus ?_
      hupdate),rfl,rfl⟩
    exact fun e he => (of_decide_eq_true he).2
  case markExecutionEnvironmentFailed fence generation error =>
    obtain ⟨row,t,h,rfl,rfl⟩ := h
    obtain ⟨context,hcontext,hstatus,hupdate⟩ := markExecutionEnvironmentFailed_ok h
    refine ⟨.inr (.reported fence context _ (.failed error) row t hcontext hstatus ?_ hupdate),
      rfl,rfl⟩
    exact fun e he => (of_decide_eq_true he).2
  case requestExecutionEnvironmentRelease jobId generation =>
    obtain ⟨row,t,h,rfl,rfl⟩ := h
    obtain ⟨job,hjob,hterminal,hupdate⟩ := requestExecutionEnvironmentRelease_ok h
    obtain rfl := (findJob_some hjob).2
    exact ⟨.inr (.releaseRequested job _ row t hjob (.inr hterminal) hupdate),rfl,rfl⟩
  case markExecutionEnvironmentReleased jobId generation =>
    obtain ⟨row,t,h,rfl,rfl⟩ := h
    exact ⟨.inr (.released jobId generation row t (markExecutionEnvironmentReleased_ok h)),rfl,rfl⟩
  all_goals cases provisions

theorem exec_annotates (annotates : command.annotates = true)
    (h : s.exec now command = .ok (response, s')) :
    Agrees s s' ∧ command.continues = none ∧ response.fences = [] := by
  cases command
  all_goals simp only [exec,map_ok,Prod.exists,Prod.map,Prod.mk.injEq,id] at h
  case putWorkspace =>
    obtain ⟨t,h,rfl,rfl⟩ := h
    obtain ⟨workspaces,rfl⟩ := putWorkspace_ok h
    exact ⟨.refl s,rfl,rfl⟩
  case markWorkspaceRemoved =>
    obtain ⟨t,h,rfl,rfl⟩ := h
    obtain ⟨workspaces,rfl⟩ := markWorkspaceRemoved_ok h
    exact ⟨.refl s,rfl,rfl⟩
  case appendCorrelation =>
    obtain ⟨_,t,h,rfl,rfl⟩ := h
    obtain ⟨_,_,_,_,_,rfl⟩ := appendCorrelation_ok h
    exact ⟨.refl s,rfl,rfl⟩
  case saveCheckpoint =>
    obtain ⟨_,t,h,rfl,rfl⟩ := h
    obtain ⟨_,_,hinsert⟩ := saveCheckpoint_ok h
    obtain ⟨_,_,_,rfl⟩ := insertCheckpoint_ok hinsert
    exact ⟨.refl s,rfl,rfl⟩
  case putThreadState threadId state =>
    obtain ⟨t,h,rfl,rfl⟩ := h
    obtain ⟨_,rfl⟩ := putThreadState_ok h
    exact ⟨upsertThreadState_agrees threadId state s,rfl,rfl⟩
  case appendJobEvent =>
    obtain ⟨_,t,h,rfl,rfl⟩ := h
    obtain ⟨events,nextSequence,rfl⟩ := appendJobEvent_ok h
    exact ⟨.refl s,rfl,rfl⟩
  case appendAttemptEvent =>
    obtain ⟨_,t,h,rfl,rfl⟩ := h
    obtain ⟨_,_,hinsert⟩ := appendAttemptEvent_ok h
    obtain ⟨events,nextSequence,rfl⟩ := insertAttemptEvent_ok hinsert
    exact ⟨.refl s,rfl,rfl⟩
  all_goals cases annotates

theorem exec_transition (h : s.exec now command = .ok (response, s')) :
    ∃ t, Transition now s command.continues response.fences t ∧ Agrees t s' := by
  cases annotates : command.annotates with
  | true =>
    obtain ⟨agrees,continues,fences⟩ := exec_annotates annotates h
    rw [continues,fences]
    exact ⟨s,.idle,agrees⟩
  | false =>
    cases provisions : command.provisions with
    | true =>
      obtain ⟨changed,continues,fences⟩ := exec_provisions provisions h
      rw [continues,fences]
      rcases changed with rfl | change
      · exact ⟨_,.idle,.refl _⟩
      · exact ⟨_,.environment _ change,.refl _⟩
    | false =>
      cases command
      all_goals simp only [exec,map_ok,Prod.exists,Prod.map,Prod.mk.injEq,id] at h
      case createJob definition jobId newId =>
        obtain ⟨t,h,rfl,rfl⟩ := h
        exact ⟨t,.created definition jobId newId t h,.refl t⟩
      case continueJob jobId feedback newId =>
        obtain ⟨t,h,rfl,rfl⟩ := h
        exact ⟨t,.continued jobId feedback newId t h,.refl t⟩
      case cancelJob jobId =>
        obtain ⟨t,h,rfl,rfl⟩ := h
        exact ⟨t,.cancelled jobId t h,.refl t⟩
      case acknowledgeJobCancellation fence =>
        obtain ⟨t,h,rfl,rfl⟩ := h
        exact ⟨t,.acknowledged fence t h,.refl t⟩
      case claimRecovery scope request locked attemptId =>
        obtain ⟨lease,t,h,rfl,rfl⟩ := h
        rcases claimRecovery_ok h with ⟨rfl,rfl⟩ | ⟨job,operation,selection,row,
          hrecoverable,hselected,rfl,hclaim⟩
        · exact ⟨t,.idle,.refl t⟩
        · exact ⟨t,.claimed request attemptId job operation selection row t hrecoverable
            hselected hclaim,.refl t⟩
      case renewAttempt fence leaseSeconds =>
        obtain ⟨t,h,rfl,rfl⟩ := h
        obtain ⟨⟨row,hrow⟩,rfl⟩ := renewAttempt_ok h
        exact ⟨_,.leased fence row _ hrow,.refl _⟩
      case relinquishAttempt fence =>
        obtain ⟨t,h,rfl,rfl⟩ := h
        obtain ⟨⟨row,hrow⟩,rfl⟩ := relinquishAttempt_ok h
        exact ⟨_,.leased fence row _ hrow,.refl _⟩
      case settleAttempt fence settlement _ _ _ =>
        obtain ⟨_,t,h,rfl,rfl⟩ := h
        obtain ⟨context,hcontext,hstatus,hagrees⟩ := settleAttemptWithEvent_agrees h
        exact ⟨_,.settled fence context settlement hcontext hstatus,hagrees⟩
      all_goals first | (cases annotates; done) | cases provisions

theorem exec_tables (quiet : command.annotates = true ∨ command.provisions = true)
    (h : s.exec now command = .ok (response, s')) :
    s'.jobs = s.jobs ∧ s'.operations = s.operations ∧ s'.attempts = s.attempts := by
  rcases quiet with annotates | provisions
  · obtain ⟨⟨jobs,operations,attempts,-⟩,-⟩ := exec_annotates annotates h
    exact ⟨jobs,operations,attempts⟩
  · obtain ⟨rfl | change,-⟩ := exec_provisions provisions h
    · exact ⟨rfl,rfl,rfl⟩
    · exact change.tables

end Store

namespace System

open Store

theorem clock_le (sys : System) (call : Call) : sys.clock ≤ sys.clock + call.elapsed :=
  Int.le_add_of_nonneg_right (Int.natCast_nonneg _)

theorem step_transition (sys : System) (call : Call) :
    ∃ fences t, Transition (sys.clock + call.elapsed) sys.store (sys.continued call) fences t ∧
      Agrees t (sys.step call).store ∧ (sys.step call).issued = sys.issued ++ fences ∧
      (sys.step call).clock = sys.clock + call.elapsed := by
  unfold step continued
  dsimp only
  cases hexec : sys.store.exec (sys.clock + call.elapsed) call.command with
  | error _ => exact ⟨[],sys.store,.idle,.refl _,(List.append_nil _).symm,rfl⟩
  | ok result =>
    obtain ⟨response,store⟩ := result
    obtain ⟨t,htransition,hagrees⟩ := exec_transition hexec
    exact ⟨response.fences,t,htransition,hagrees,rfl,rfl⟩

theorem step_changes {sys : System} {call : Call} (h : (sys.step call).store ≠ sys.store) :
    ∃ response store, sys.store.exec (sys.clock + call.elapsed) call.command =
      .ok (response, store) := by
  unfold step at h
  dsimp only at h
  split at h
  next => exact absurd rfl h
  next response store hexec => exact ⟨response,store,hexec⟩

end System

end Coordinator
