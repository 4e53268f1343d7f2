import Factory.Coordinator.JobFrame

namespace Coordinator

open Result Table

namespace Store

structure Kept (s t : Store) (jobId : JobId) : Prop where
  job : t.findJob jobId = s.findJob jobId
  attempts : (t.attemptsIn jobId).map (·.key) = (s.attemptsIn jobId).map (·.key)

structure Acknowledged (now : Timestamp) (s : Store) (job : JobRow) (command : Command) : Prop where
  fenced : ∃ fence, command = .acknowledgeJobCancellation fence ∧
    ∃ a ∈ s.runningAttempts job.jobId, a.holds now fence = true
  released : ∀ e, s.findEnvironment job.jobId = some e → e.status = .released

variable {now : Timestamp} {s t : Store} {jobId : JobId} {fence : AttemptFence} {job : JobRow}
  {command : Command} {response : Response} {context : AttemptContextRow}

theorem Frozen.kept (h : Frozen s t jobId) : Kept s t jobId := ⟨h.job,by rw [h.attempts]⟩

theorem kept_of_tables (jobs : t.jobs = s.jobs) (operations : t.operations = s.operations)
    (attempts : t.attempts = s.attempts) : Kept s t jobId :=
  (frozen_of_tables jobs operations attempts).kept

theorem kept_of_attempts {p : AttemptRow → Bool} {f : AttemptRow → AttemptRow}
    (jobs : t.findJob jobId = s.findJob jobId)
    (operations : t.operationsOf jobId = s.operationsOf jobId)
    (attempts : t.attempts = updateWhere p f s.attempts) (key : ∀ a, (f a).key = a.key) :
    Kept s t jobId := by
  refine ⟨jobs,?_⟩
  rw [attemptsIn,attemptsIn,attempts,ownsAttempt_congr operations,filter_updateWhere]
  · exact map_updateWhere fun a _ _ => key a
  · intro a
    have owner : (f a).operationId = a.operationId := congrArg (·.2.1) (key a)
    rw [ownsAttempt,ownsAttempt,owner]

theorem context_other (found : s.findJob jobId = some job)
    (lease : s.attemptContext now fence = some context) (differ : context.jobStatus ≠ job.status) :
    context.jobId ≠ jobId := by
  obtain ⟨target,located,named,status⟩ := attemptContext_job lease
  rintro rfl
  rw [named] at located
  obtain rfl := Option.some.inj (found.symm.trans located)
  exact differ status.symm

section Cancelling

variable (wf : s.WellFormed) (found : s.findJob jobId = some job)
  (cancelling : job.status = .cancelling)

include wf found cancelling

theorem startJob_kept : (s.startJob jobId).findJob jobId = s.findJob jobId := by
  have same : (s.startJob jobId).jobs = s.jobs := by
    refine updateWhere_fixed ?_
    intro j mem hit
    obtain ⟨member,named⟩ := findJob_some found
    obtain rfl := wf.job_eq member mem
      (named.trans (of_decide_eq_true hit).1.symm)
    rw [if_pos cancelling]
  rw [findJob,findJob,same]

theorem claimed_kept {request : ClaimRequest} {attemptId : AttemptId} {target : JobRow}
    {operation : OperationRow} {selection : RecoverySelection} {row : AttemptRow}
    (recoverable : Recoverable now s target operation)
    (claim : Claimed now request attemptId s target operation selection row t) :
    Kept s t jobId := by
  by_cases own : target.jobId = jobId
  · obtain ⟨member,named⟩ := findJob_some found
    obtain rfl := wf.job_eq recoverable.job_mem member
      (own.trans named.symm)
    subst own
    rcases recoverable.eligible with ⟨ready,_⟩ | ⟨running,_⟩
    · rw [cancelling] at ready
      rcases ready with ready | ready <;> cases ready
    · cases claim with
      | started _ status =>
        rw [running] at status
        rcases status with status | status <;> cases status
      | reclaimed latest previous _ _ _ =>
        refine kept_of_attempts (startJob_kept wf found cancelling) ?_ rfl (fun _ => rfl)
        have same : (s.setOperationStatus operation.operationId .running).operations =
            s.operations := by
          refine updateWhere_fixed ?_
          intro o mem hit
          obtain rfl := wf.operation_eq recoverable.operation_mem mem
            (of_decide_eq_true hit).symm
          rw [← running]
        exact congrArg (List.filter (fun o => o.jobId = target.jobId)) same
  · exact (claimed_frozen wf recoverable own claim).kept

theorem exec_kept (h : s.exec now command = .ok (response, t))
    (unacknowledged : ∀ fence, command ≠ .acknowledgeJobCancellation fence) : Kept s t jobId := by
  have settled : ∀ {fence : AttemptFence} {context : AttemptContextRow},
      s.attemptContext now fence = some context → context.jobStatus ≠ .cancelling →
      context.jobId ≠ jobId := by
    intro fence context lease advancing
    exact context_other found lease (by rw [cancelling]; exact advancing)
  by_cases quiet : command.annotates = true ∨ command.provisions = true
  · obtain ⟨jobs,operations,attempts⟩ := exec_tables quiet h
    exact kept_of_tables jobs operations attempts
  cases command
  all_goals simp only [exec,map_ok,Prod.exists,Prod.map,Prod.mk.injEq,id] at h
  case createJob =>
    obtain ⟨_,created,_,rfl⟩ := h
    exact (createJob_frozen found created).kept
  case continueJob =>
    obtain ⟨_,continued,_,rfl⟩ := h
    exact (continueJob_frozen found (by rw [cancelling]; decide) continued).kept
  case cancelJob =>
    obtain ⟨_,cancelled,_,rfl⟩ := h
    exact (cancelJob_frozen found (by rw [cancelling]; decide) cancelled).kept
  case acknowledgeJobCancellation fence => exact absurd rfl (unacknowledged fence)
  case claimRecovery =>
    obtain ⟨_,_,claimed,_,rfl⟩ := h
    rcases claimRecovery_ok claimed with ⟨_,rfl⟩ | ⟨_,_,_,_,recoverable,_,_,claim⟩
    · exact (Frozen.refl _ jobId).kept
    · exact claimed_kept wf found cancelling recoverable claim
  case renewAttempt =>
    obtain ⟨_,renewed,_,rfl⟩ := h
    obtain ⟨_,rfl⟩ := renewAttempt_ok renewed
    exact kept_of_attempts rfl rfl rfl fun _ => rfl
  case relinquishAttempt =>
    obtain ⟨_,relinquished,_,rfl⟩ := h
    obtain ⟨_,rfl⟩ := relinquishAttempt_ok relinquished
    exact kept_of_attempts rfl rfl rfl fun _ => rfl
  case settleAttempt fence settlement _ _ _ =>
    obtain ⟨_,_,settles,_,rfl⟩ := h
    obtain ⟨context,lease,advancing,jobs,operations,attempts,_⟩ :=
      settleAttemptWithEvent_agrees settles
    exact ((settle_frozen wf lease (settled lease advancing) settlement).trans
      (frozen_of_tables jobs operations attempts)).kept
  all_goals first | exact absurd (.inl rfl) quiet | exact absurd (.inr rfl) quiet

end Cancelling

variable {a : AttemptRow}

theorem LeaseRows.running_mem {o : OperationRow} {j : JobRow}
    (rows : LeaseRows now fence s context a o j) : a ∈ s.runningAttempts context.jobId := by
  refine mem_runningAttempts.mpr ⟨rows.attempt_mem,rows.running,o,?_,rows.operation_eq.symm⟩
  rw [rows.context_eq]
  exact mem_operationsOf.mpr ⟨rows.operation_mem,rfl⟩

theorem exec_cancelling (wf : s.WellFormed) (found : s.findJob job.jobId = some job)
    (cancelling : job.status = .cancelling) (h : s.exec now command = .ok (response, t)) :
    Kept s t job.jobId ∨ Acknowledged now s job command ∧
      t.findJob job.jobId = some { job with status := .cancelled } := by
  by_cases acknowledged : ∃ fence, command = .acknowledgeJobCancellation fence
  · obtain ⟨fence,rfl⟩ := acknowledged
    simp only [exec,map_ok,Prod.mk.injEq] at h
    obtain ⟨_,result,_,rfl⟩ := h
    obtain ⟨context,lease,_,released,rfl⟩ := acknowledgeJobCancellation_ok result
    by_cases own : context.jobId = job.jobId
    · obtain ⟨a,o,j,rows⟩ := leaseRows lease
      have running := rows.running_mem
      rw [own] at running released
      refine .inr ⟨⟨⟨fence,rfl,a,running,AttemptRow.holds_iff.mpr ⟨rows.fence_eq,rows.running,
        rows.live⟩⟩,fun e located => released e located⟩,?_⟩
      rw [own]
      have moved := @find_updateWhere _ _ ({ · with status := .cancelled }) s.jobs (·.jobId) _
        job.jobId (fun _ => rfl)
      refine moved.trans ?_
      change (s.findJob job.jobId).map _ = _
      rw [found]
      rfl
    · exact .inl (acknowledge_frozen wf lease own).kept
  · exact .inl (exec_kept wf found cancelling h fun fence same => acknowledged ⟨fence,same⟩)

theorem exec_rejected (wf : s.WellFormed) (found : s.findJob job.jobId = some job)
    (cancelling : job.status = .cancelling) (advances : command.advances = some fence)
    (mem : a ∈ s.attemptsIn job.jobId) (named : a.attemptId = fence.attemptId) :
    ∃ error, s.exec now command = .error error := by
  have unheld : ∀ {context : AttemptContextRow},
      s.attemptContext now fence = some context → context.jobStatus ≠ .cancelling → False := by
    intro context lease advancing
    obtain ⟨b,o,j,rows⟩ := leaseRows lease
    obtain ⟨member,owned⟩ := List.mem_filter.mp mem
    have free := rows.misses wf (context_other found lease (by rw [cancelling]; exact advancing))
      member named
    rw [owned] at free
    cases free
  cases result : s.exec now command with
  | error error => exact ⟨error,rfl⟩
  | ok outcome =>
    obtain ⟨response,t⟩ := outcome
    have fenced : command.fence = some fence := by
      cases command <;> first | exact advances | cases advances
    obtain ⟨-,leased⟩ := exec_fenced fenced result
    obtain ⟨context,lease,advancing⟩ := leased (by rw [advances]; rfl)
    exact (unheld lease advancing).elim

theorem Sound.idle (sound : s.Sound) (found : s.findJob job.jobId = some job)
    (cancelled : job.status = .cancelled) (mem : a ∈ s.attempts) (running : a.status = .running) :
    s.ownsAttempt job.jobId a = false := by
  by_contra owned
  obtain ⟨o,member,owner,named⟩ := ownsAttempt_iff.mp (by simpa using owned)
  have busy : a ∈ s.runningAttempts job.jobId :=
    mem_runningAttempts.mpr ⟨mem,running,o,mem_operationsOf.mpr ⟨member,named⟩,owner⟩
  rw [sound.quiet (findJob_some found).1 (by rw [cancelled]; decide)] at busy
  exact absurd busy List.not_mem_nil

theorem Transition.frozen {continued : Option JobId} {fences : List AttemptFence}
    (h : Transition now s continued fences t) (sound : s.Sound)
    (found : s.findJob job.jobId = some job) (cancelled : job.status = .cancelled) :
    Frozen s t job.jobId := by
  have unheld : ∀ {fence : AttemptFence} {context : AttemptContextRow},
      s.attemptContext now fence = some context → context.jobId ≠ job.jobId := by
    intro fence context lease own
    obtain ⟨a,o,j,rows⟩ := leaseRows lease
    have busy := rows.running_mem
    rw [own,sound.quiet (findJob_some found).1 (by rw [cancelled]; decide)] at busy
    exact absurd busy List.not_mem_nil
  cases h with
  | idle => exact .refl s job.jobId
  | environment _ change =>
    obtain ⟨jobs,operations,attempts⟩ := change.tables
    exact frozen_of_tables jobs operations attempts
  | leased fence row expiry _ =>
    refine frozen_of_filters rfl rfl ?_
    refine attempts_other (fun _ => rfl) ?_
    intro a mem hit
    exact sound.idle found cancelled mem (AttemptRow.holds_iff.mp hit).2.1
  | created _ _ _ _ result => exact createJob_frozen found result
  | continued _ _ _ _ result =>
    exact continueJob_frozen found (by rw [cancelled]; decide) result
  | cancelled _ _ result => exact cancelJob_frozen found (by rw [cancelled]; decide) result
  | acknowledged fence _ result =>
    obtain ⟨context,lease,_,_,rfl⟩ := acknowledgeJobCancellation_ok result
    exact acknowledge_frozen sound.wellFormed lease (unheld lease)
  | settled fence context settlement lease _ =>
    exact settle_frozen sound.wellFormed lease (unheld lease) settlement
  | claimed _ _ target _ _ _ _ recoverable _ claim =>
    refine claimed_frozen sound.wellFormed recoverable ?_ claim
    intro own
    obtain ⟨member,_⟩ := findJob_some found
    obtain rfl := sound.wellFormed.job_eq
      recoverable.job_mem member own
    have status := recoverable.open_job
    rw [cancelled] at status
    rcases status with status | status | status <;> cases status

end Store

namespace System

open Store

variable {job : JobRow}

theorem step_frozen (sys : System) (call : Call) (sound : sys.store.Sound)
    (found : sys.store.findJob job.jobId = some job) (cancelled : job.status = .cancelled) :
    Frozen sys.store (sys.step call).store job.jobId := by
  obtain ⟨_,_,transition,⟨jobs,operations,attempts,_⟩,_,_⟩ := sys.step_transition call
  exact (transition.frozen sound found cancelled).trans (frozen_of_tables jobs operations attempts)

theorem run_frozen (sys : System) (later : List Call) (sound : sys.store.Sound)
    (found : sys.store.findJob job.jobId = some job) (cancelled : job.status = .cancelled) :
    Frozen sys.store (sys.run later).store job.jobId := by
  have kept := @Machine.run_invariant _ _ step sys
    (fun current => current.store.Sound ∧ Frozen sys.store current.store job.jobId) (by
      rintro current call ⟨sound,frozen⟩
      refine ⟨sound_step current call sound,frozen.trans ?_⟩
      exact step_frozen current call sound (frozen.job.trans found) cancelled)
    ⟨sound,.refl sys.store job.jobId⟩ later
  exact kept.2

theorem step_cancelling (sys : System) (call : Call) (sound : sys.store.Sound)
    (found : sys.store.findJob job.jobId = some job) (cancelling : job.status = .cancelling) :
    Kept sys.store (sys.step call).store job.jobId ∨
      Acknowledged (sys.clock + call.elapsed) sys.store job call.command ∧
        (sys.step call).store.findJob job.jobId = some { job with status := .cancelled } := by
  unfold step
  dsimp only
  cases result : sys.store.exec (sys.clock + call.elapsed) call.command with
  | error _ => exact .inl (Frozen.refl _ _).kept
  | ok outcome =>
    obtain ⟨response,store⟩ := outcome
    exact exec_cancelling sound.wellFormed found cancelling result

theorem run_cancelling (sys : System) (later : List Call) (sound : sys.store.Sound)
    (found : sys.store.findJob job.jobId = some job) (cancelling : job.status = .cancelling) :
    (sys.run later).store.findJob job.jobId = some job ∨
      (sys.run later).store.findJob job.jobId = some { job with status := .cancelled } := by
  have kept := @Machine.run_invariant _ _ step sys
    (fun current => current.store.Sound ∧ (current.store.findJob job.jobId = some job ∨
      current.store.findJob job.jobId = some { job with status := .cancelled })) (by
      rintro current call ⟨sound,found | closed⟩
      · refine ⟨sound_step current call sound,?_⟩
        rcases step_cancelling current call sound found cancelling with kept | ⟨_,closed⟩
        · exact .inl (kept.job.trans found)
        · exact .inr closed
      · refine ⟨sound_step current call sound,.inr ?_⟩
        have frozen := @step_frozen { job with status := .cancelled } current call sound closed rfl
        exact frozen.job.trans closed)
    ⟨sound,.inl found⟩ later
  exact kept.2

end System

structure CancellationOneWay (sys : System) (job : JobRow) : Prop where
  stays : job.status = .cancelling → ∀ later,
    (sys.run later).store.findJob job.jobId = some job ∨
      (sys.run later).store.findJob job.jobId = some { job with status := .cancelled }
  exit : job.status = .cancelling → ∀ call,
    (sys.step call).store.findJob job.jobId ≠ some job →
      (sys.step call).store.findJob job.jobId = some { job with status := .cancelled } ∧
        Store.Acknowledged (sys.clock + call.elapsed) sys.store job call.command
  rejects : job.status = .cancelling → ∀ call fence, call.command.advances = some fence →
    (∃ a ∈ sys.store.attemptsIn job.jobId, a.attemptId = fence.attemptId) →
      (∃ error, sys.store.exec (sys.clock + call.elapsed) call.command = .error error) ∧
        (sys.step call).store = sys.store
  reclaims : job.status = .cancelling → ∀ elapsed scope request locked attemptId,
    Store.Kept sys.store (sys.step ⟨elapsed, .claimRecovery scope request locked attemptId⟩).store
      job.jobId
  closed : job.status = .cancelled → ∀ later,
    Store.Frozen sys.store (sys.run later).store job.jobId

theorem cancellation_one_way (clock : Timestamp) (calls : List Call) (job : JobRow)
    (found : ((System.init clock).run calls).store.findJob job.jobId = some job) :
    CancellationOneWay ((System.init clock).run calls) job := by
  have sound := System.sound_run clock calls
  generalize (System.init clock).run calls = sys at found sound
  refine ⟨fun cancelling later => sys.run_cancelling later sound found cancelling,?_,?_,?_,
    fun cancelled later => sys.run_frozen later sound found cancelled⟩
  · intro cancelling call changed
    rcases sys.step_cancelling call sound found cancelling with kept | ⟨acknowledged,closed⟩
    · exact absurd (kept.job.trans found) changed
    · exact ⟨closed,acknowledged⟩
  · rintro cancelling call fence advances ⟨a,mem,named⟩
    obtain ⟨error,rejected⟩ := Store.exec_rejected sound.wellFormed found cancelling advances mem
      named
    refine ⟨⟨error,rejected⟩,?_⟩
    unfold System.step
    dsimp only
    rw [rejected]
  · intro cancelling elapsed scope request locked attemptId
    rcases sys.step_cancelling ⟨elapsed,.claimRecovery scope request locked attemptId⟩ sound found
      cancelling with kept | ⟨⟨⟨fence,same,_⟩,_⟩,_⟩
    · exact kept
    · cases same

theorem cancellation_one_way_cancelling :
    ((System.init 0).run cancellingRun).store.findJob "job" =
        some ⟨"job", "demo", .null, .cancelling, 0⟩ ∧
      CancellationOneWay ((System.init 0).run cancellingRun)
        ⟨"job", "demo", .null, .cancelling, 0⟩ :=
  ⟨by decide,cancellation_one_way 0 cancellingRun _ (by decide)⟩

end Coordinator
