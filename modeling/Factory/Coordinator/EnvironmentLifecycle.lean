import Factory.Coordinator.EnvironmentRefinement

namespace Coordinator

open Result Table Coordinator.System Option

namespace Store

structure EnvironmentInvariant (s : Store) (e : EnvironmentRow) : Prop where
  consistent : e.Consistent
  terminal : ∀ job, s.findJob e.jobId = some job → job.status.Terminal →
    e.desiredState = .released
  working : ∀ job, s.findJob e.jobId = some job → job.status.Working → e.desiredState = .active

structure Tenanted (s : Store) : Prop where
  sound : s.Sound
  keyed : s.Keyed
  valid : ∀ jobId x, s.tenancy jobId = some x → x.Valid

variable {s t : Store} {continued : Option JobId}

theorem empty_tenanted : Tenanted Store.empty :=
  ⟨empty_sound,⟨List.nodup_nil,fun _ _ => rfl⟩,fun _ _ h => by cases h⟩

theorem Refines.step (h : Refines continued s t) {jobId : JobId} {x : Tenancy}
    (found : s.tenancy jobId = some x) :
    ∃ y, t.tenancy jobId = some y ∧ Tenancy.Step (decide (continued = some jobId)) x y := by
  have moves := h jobId
  rw [found] at moves
  cases after : t.tenancy jobId with
  | none =>
    rw [after] at moves
    cases moves
  | some y =>
    rw [after] at moves
    cases moves with
    | moved step => exact ⟨y,rfl,step⟩

theorem Refines.valid (h : Refines continued s t)
    (valid : ∀ jobId x, s.tenancy jobId = some x → x.Valid) :
    ∀ jobId x, t.tenancy jobId = some x → x.Valid := by
  intro jobId y after
  have moves := h jobId
  rw [after] at moves
  cases before : s.tenancy jobId with
  | none =>
    rw [before] at moves
    cases moves with
    | submitted => exact Tenancy.valid_none _
  | some x =>
    rw [before] at moves
    cases moves with
    | moved step => exact (valid jobId x before).step step

variable {e : EnvironmentRow}

theorem Keyed.tenancy (h : s.Keyed) (he : e ∈ s.environments) :
    ∃ job, s.findJob e.jobId = some job ∧ s.tenancy e.jobId = some ⟨job.status, some e⟩ := by
  cases found : s.findJob e.jobId with
  | none => exact absurd ((h.find he).symm.trans (h.owned _ found)) (by simp)
  | some job => exact ⟨job,rfl,by rw [Store.tenancy,found,h.find he,map_some]⟩

theorem Tenanted.invariant (h : s.Tenanted) (he : e ∈ s.environments) :
    s.EnvironmentInvariant e := by
  obtain ⟨job,found,row⟩ := h.keyed.tenancy he
  obtain ⟨consistent,desired⟩ := Tenancy.valid_some.mp (h.valid _ _ row)
  refine ⟨consistent,fun job' found' terminal => ?_,fun job' found' working => ?_⟩
  · obtain rfl : job' = job := some.inj (found'.symm.trans found)
    exact desired _ terminal.desired
  · obtain rfl : job' = job := some.inj (found'.symm.trans found)
    exact desired _ working.desired

theorem tenancy_environment {jobId : JobId} {x : Tenancy} (h : s.tenancy jobId = some x) :
    s.findEnvironment jobId = x.environment := by
  obtain ⟨job,_,rfl⟩ := map_eq_some_iff.mp h
  rfl

def generationOf (s : Store) (jobId : JobId) : Nat :=
  ((s.findEnvironment jobId).map (·.generation)).getD 1

theorem Refines.generation (h : Refines continued s t) (before : s.Keyed) (after : t.Keyed)
    (jobId : JobId) :
    t.generationOf jobId = s.generationOf jobId +
      if continued = some jobId ∧ (s.findEnvironment jobId).isSome then 1 else 0 := by
  cases found : s.tenancy jobId with
  | none =>
    have absent : s.findEnvironment jobId = none :=
      before.owned jobId (map_eq_none_iff.mp found)
    have moves := h jobId
    rw [found] at moves
    have still : t.findEnvironment jobId = none := by
      cases row : t.tenancy jobId with
      | none => exact after.owned jobId (map_eq_none_iff.mp row)
      | some y =>
        rw [row] at moves
        cases moves with
        | submitted => exact tenancy_environment row
    simp [generationOf,absent,still]
  | some x =>
    obtain ⟨y,row,step⟩ := h.step found
    have change := step.generation
    simp only [decide_eq_true_eq] at change
    rw [generationOf,generationOf,tenancy_environment found,tenancy_environment row]
    exact change

end Store

namespace System

open Store

def acknowledged (sys : System) (call : Call) : Option JobId :=
  match call.command with
  | .acknowledgeJobCancellation fence =>
    match sys.store.acknowledgeJobCancellation (sys.clock + call.elapsed) fence with
    | .error _ => none
    | .ok _ => (sys.store.attemptContext (sys.clock + call.elapsed) fence).map (·.jobId)
  | _ => none

def continuations (jobId : JobId) : System → List Call → Nat
  | _, [] => 0
  | sys, call :: rest =>
    (if sys.continued call = some jobId ∧ (sys.store.findEnvironment jobId).isSome then 1
      else 0) + continuations jobId (sys.step call) rest

def StaleReport (sys : System) (call : Call) : Prop :=
  match call.command with
  | .markExecutionEnvironmentReady fence generation _ _
  | .markExecutionEnvironmentFailed fence generation _ =>
    ∀ context e, sys.store.attemptContext (sys.clock + call.elapsed) fence = some context →
      sys.store.findEnvironment context.jobId = some e → e.generation ≠ generation
  | .markExecutionEnvironmentReleased jobId generation =>
    ∀ e, sys.store.findEnvironment jobId = some e → e.generation ≠ generation
  | _ => False

variable {sys : System} {e : EnvironmentRow} {jobId : JobId} {call : Call}

theorem step_preserves (h : sys.store.Tenanted) (call : Call) :
    Preserves (sys.continued call) sys.store (sys.step call).store := by
  obtain ⟨fences,t,transition,⟨jobs,_,_,environments⟩,_,_⟩ := sys.step_transition call
  obtain ⟨refines,keyed⟩ := transition.preserves h.keyed h.sound
  refine ⟨fun jobId => ?_,keyed_same jobs environments keyed⟩
  have same : (sys.step call).store.tenancy jobId = t.tenancy jobId := by
    simp only [tenancy,findJob,findEnvironment,jobs,environments]
  rw [same]
  exact refines jobId

theorem tenanted_step (sys : System) (call : Call) (h : sys.store.Tenanted) :
    (sys.step call).store.Tenanted := by
  obtain ⟨refines,keyed⟩ := step_preserves h call
  exact ⟨sys.sound_step call h.sound,keyed,refines.valid h.valid⟩

theorem tenanted_run (h : sys.store.Tenanted) (calls : List Call) :
    (sys.run calls).store.Tenanted :=
  @Machine.run_invariant _ _ step sys (fun sys => sys.store.Tenanted) tenanted_step h calls

theorem tenanted_init (clock : Timestamp) (calls : List Call) :
    ((init clock).run calls).store.Tenanted :=
  tenanted_run empty_tenanted calls

theorem run_cons (sys : System) (call : Call) (rest : List Call) :
    sys.run (call :: rest) = (sys.step call).run rest := rfl

theorem run_append (sys : System) (before after : List Call) :
    sys.run (before ++ after) = (sys.run before).run after :=
  Machine.run_append sys before after

theorem kept_step (h : sys.store.Tenanted) (found : sys.store.findEnvironment jobId = some e)
    (call : Call) :
    ∃ e', (sys.step call).store.findEnvironment jobId = some e' ∧ e.Same e' := by
  obtain ⟨member,rfl⟩ := findEnvironment_some found
  obtain ⟨job,_,row⟩ := h.keyed.tenancy member
  obtain ⟨y,after,step⟩ := (step_preserves h call).1.step row
  obtain ⟨e',kept,same⟩ := step.kept rfl
  exact ⟨e',(tenancy_environment after).trans kept,same⟩

theorem kept_run (h : sys.store.Tenanted) (found : sys.store.findEnvironment jobId = some e)
    (calls : List Call) :
    ∃ e', (sys.run calls).store.findEnvironment jobId = some e' ∧ e.Same e' := by
  induction calls generalizing sys e with
  | nil => exact ⟨e,found,rfl,rfl⟩
  | cons call rest ih =>
    obtain ⟨middle,row,first⟩ := kept_step h found call
    obtain ⟨last,found,second⟩ := ih (tenanted_step sys call h) row
    exact ⟨last,found,second.environmentId.trans first.environmentId,
      second.backend.trans first.backend⟩

theorem closed_run {x : Tenancy} (h : sys.store.Tenanted) (found : sys.store.tenancy jobId = some x)
    (closed : x.Closed) (calls : List Call) :
    ∃ y, (sys.run calls).store.tenancy jobId = some y ∧ y.Closed := by
  induction calls generalizing sys x with
  | nil => exact ⟨x,found,closed⟩
  | cons call rest ih =>
    obtain ⟨y,after,step⟩ := (step_preserves h call).1.step found
    exact ih (tenanted_step sys call h) after (closed.step step)

theorem generation_run {sys : System} (h : sys.store.Tenanted) (jobId : JobId)
    (calls : List Call) :
    (sys.run calls).store.generationOf jobId =
      sys.store.generationOf jobId + continuations jobId sys calls := by
  induction calls generalizing sys with
  | nil => rfl
  | cons call rest ih =>
    obtain ⟨refines,keyed⟩ := step_preserves h call
    rw [run_cons,ih (tenanted_step sys call h),refines.generation h.keyed keyed,
      continuations,Nat.add_assoc]

theorem acknowledged_closed (h : sys.acknowledged call = some jobId) :
    ∃ x, (sys.step call).store.tenancy jobId = some x ∧ x.Closed := by
  obtain ⟨elapsed,command⟩ := call
  unfold acknowledged at h
  split at h
  next fence same =>
    cases same
    cases result : sys.store.acknowledgeJobCancellation (sys.clock + elapsed) fence with
    | error error =>
      rw [result] at h
      cases h
    | ok t =>
      rw [result] at h
      obtain ⟨context,lease,rfl⟩ := map_eq_some_iff.mp h
      have store : (sys.step ⟨elapsed,.acknowledgeJobCancellation fence⟩).store = t := by
        simp only [step,exec,result]
        rfl
      obtain ⟨context',lease',_,released,rfl⟩ := acknowledgeJobCancellation_ok result
      obtain rfl : context' = context := some.inj (lease'.symm.trans lease)
      obtain ⟨job,found,same,_⟩ := attemptContext_job lease
      rw [same] at found
      refine ⟨⟨.cancelled,sys.store.findEnvironment context'.jobId⟩,?_,rfl,released⟩
      rw [store,tenancy]
      have key : ∀ j : JobRow, { j with status := JobState.cancelled }.jobId = j.jobId :=
        fun _ => rfl
      have cancelled : (updateWhere (fun j => j.jobId = context'.jobId)
          ({ · with status := .cancelled }) sys.store.jobs).find?
          (fun j => j.jobId = context'.jobId) = some { job with status := .cancelled } :=
        (find_updateWhere JobRow.jobId key).trans (congrArg (Option.map _) found)
      exact congrArg (Option.map _) cancelled
  next => cases h

theorem step_rejected
    (h : ∀ result, sys.store.exec (sys.clock + call.elapsed) call.command ≠ .ok result) :
    (sys.step call).store = sys.store := by
  by_contra changed
  obtain ⟨response,store,accepted⟩ := step_changes changed
  exact h _ accepted

theorem updateEnvironment_current {s t : Store} {guard : EnvironmentRow → Bool}
    {f : EnvironmentRow → EnvironmentRow} {row : EnvironmentRow} (keyed : s.Keyed)
    (h : s.updateEnvironment jobId guard f = (some row, t)) :
    ∃ e, s.findEnvironment jobId = some e ∧ guard e = true := by
  obtain ⟨e,member,rfl,holds,_⟩ := updateEnvironment_some h
  exact ⟨e,keyed.find member,holds⟩

theorem stale_report_ignored (h : sys.store.Tenanted) (stale : sys.StaleReport call) :
    (sys.step call).store = sys.store := by
  obtain ⟨elapsed,command⟩ := call
  refine step_rejected ?_
  rintro ⟨response,t⟩ accepted
  cases command <;> simp only [StaleReport] at stale
  case markExecutionEnvironmentReady fence generation backendRef url =>
    simp only [exec,map_ok,Prod.exists,Prod.map,Prod.mk.injEq,id] at accepted
    obtain ⟨row,t,accepted,_⟩ := accepted
    obtain ⟨context,lease,_,updated⟩ := markExecutionEnvironmentReady_ok accepted
    obtain ⟨e,found,holds⟩ := updateEnvironment_current h.keyed updated
    exact stale context e lease found (of_decide_eq_true holds).1
  case markExecutionEnvironmentFailed fence generation error =>
    simp only [exec,map_ok,Prod.exists,Prod.map,Prod.mk.injEq,id] at accepted
    obtain ⟨row,t,accepted,_⟩ := accepted
    obtain ⟨context,lease,_,updated⟩ := markExecutionEnvironmentFailed_ok accepted
    obtain ⟨e,found,holds⟩ := updateEnvironment_current h.keyed updated
    exact stale context e lease found (of_decide_eq_true holds).1
  case markExecutionEnvironmentReleased jobId generation =>
    simp only [exec,map_ok,Prod.exists,Prod.map,Prod.mk.injEq,id] at accepted
    obtain ⟨row,t,accepted,_⟩ := accepted
    obtain ⟨e,found,holds⟩ := updateEnvironment_current h.keyed
      (markExecutionEnvironmentReleased_ok accepted)
    exact stale e found (of_decide_eq_true holds).1

end System

structure EnvironmentLifecycle (clock : Timestamp) (calls : List Call) : Prop where
  invariant : ∀ e ∈ ((init clock).run calls).store.environments,
    ((init clock).run calls).store.EnvironmentInvariant e
  unique : (((init clock).run calls).store.environments.map (·.jobId)).Nodup
  kept : ∀ before after, calls = before ++ after →
    ∀ e ∈ ((init clock).run before).store.environments,
      ∃ e', ((init clock).run calls).store.findEnvironment e.jobId = some e' ∧ e.Same e'
  acknowledged : ∀ before call after, calls = before ++ call :: after → ∀ jobId,
    ((init clock).run before).acknowledged call = some jobId →
    ∀ e, ((init clock).run calls).store.findEnvironment jobId = some e →
      e.status = .released
  generation : ∀ e ∈ ((init clock).run calls).store.environments,
    e.generation = 1 + continuations e.jobId (init clock) calls
  stale : ∀ call, ((init clock).run calls).StaleReport call →
    (((init clock).run calls).step call).store = ((init clock).run calls).store

theorem environment_lifecycle (clock : Timestamp) (calls : List Call) :
    EnvironmentLifecycle clock calls := by
  have reached := tenanted_init clock calls
  refine ⟨fun e he => reached.invariant he,reached.keyed.unique,?_,?_,?_,
    fun call stale => stale_report_ignored reached stale⟩
  · rintro before after rfl e he
    rw [run_append]
    have earlier := tenanted_init clock before
    exact kept_run earlier (earlier.keyed.find he) after
  · rintro before call after rfl jobId acknowledged e found
    rw [run_append,run_cons] at found
    obtain ⟨x,row,closed⟩ := acknowledged_closed acknowledged
    obtain ⟨y,last,closed⟩ := closed_run
      (tenanted_step _ call (tenanted_init clock before)) row closed after
    exact closed.released e ((Store.tenancy_environment last).symm.trans found)
  · intro e he
    have count := @generation_run (init clock) Store.empty_tenanted e.jobId calls
    rw [Store.generationOf,reached.keyed.find he] at count
    exact count

def acknowledgedRun : List Call :=
  [⟨0, .createJob ⟨"demo", .null, [⟨"first", .null, 2⟩]⟩ "job" (fun _ => "first")⟩,
    ⟨0, .claimRecovery .any ⟨"worker", 60, none⟩ [] "attempt"⟩,
    ⟨1, .ensureExecutionEnvironment ⟨"attempt", "worker", 1⟩ "docker" "environment"⟩,
    ⟨1, .markExecutionEnvironmentReady ⟨"attempt", "worker", 1⟩ 1 "container" "http"⟩,
    ⟨1, .cancelJob "job"⟩,
    ⟨1, .requestCancellingExecutionEnvironmentRelease ⟨"attempt", "worker", 1⟩⟩,
    ⟨1, .markExecutionEnvironmentReleased "job" 1⟩,
    ⟨1, .acknowledgeJobCancellation ⟨"attempt", "worker", 1⟩⟩]

theorem environment_lifecycle_acknowledged :
    ((init 0).run (acknowledgedRun.take 7)).acknowledged
        ⟨1, .acknowledgeJobCancellation ⟨"attempt", "worker", 1⟩⟩ = some "job" ∧
      (((init 0).run acknowledgedRun).store.findEnvironment "job").map
        (fun e => (e.status, e.generation)) = some (.released, 1) ∧
      EnvironmentLifecycle 0 acknowledgedRun :=
  ⟨by decide,by decide,environment_lifecycle 0 acknowledgedRun⟩

theorem tenancies_refined (clock : Timestamp) (calls : List Call) :
    Machine.Along step (fun sys call => Store.Refines (sys.continued call) sys.store
      (sys.step call).store) (init clock) calls :=
  @Machine.along_of_invariant _ _ step _ (fun _ _ => True) (fun sys => sys.store.Tenanted) _
    (fun sys call _ => tenanted_step sys call) (fun _ call _ h => (step_preserves h call).1)
    Store.empty_tenanted calls (Machine.along_true calls)

end Coordinator
