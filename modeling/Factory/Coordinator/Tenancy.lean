import Factory.Coordinator.Environments

namespace Coordinator

open EnvironmentRow

def JobState.Working (status : JobState) : Prop := status = .queued ∨ status = .running

def JobState.Terminal (status : JobState) : Prop :=
  status = .succeeded ∨ status = .failed ∨ status = .cancelled

def JobState.desired : JobState → Option ExecutionEnvironmentDesiredState
  | .queued | .running => some .active
  | .cancelling => none
  | .succeeded | .failed | .cancelled => some .released

theorem JobState.Working.desired {status : JobState} (h : status.Working) :
    status.desired = some .active := by
  rcases h with rfl | rfl <;> rfl

theorem JobState.Terminal.desired {status : JobState} (h : status.Terminal) :
    status.desired = some .released := by
  rcases h with rfl | rfl | rfl <;> rfl

structure EnvironmentRow.Consistent (e : EnvironmentRow) : Prop where
  active_iff : e.desiredState = .active ↔
    e.status = .provisioning ∨ e.status = .ready ∨ e.status = .failed
  released_iff : e.desiredState = .released ↔ e.status = .releasing ∨ e.status = .released
  ready : e.status = .ready → e.backendRef.isSome ∧ e.url.isSome
  released : e.status = .released → e.url = none

structure EnvironmentRow.Same (e e' : EnvironmentRow) : Prop where
  environmentId : e'.environmentId = e.environmentId
  backend : e'.backend = e.backend

inductive EnvironmentReport where
  | locator (backendRef : String)
  | ready (backendRef url : String)
  | failed (error : String)

def EnvironmentReport.apply : EnvironmentReport → EnvironmentRow → EnvironmentRow
  | .locator backendRef => fun e => { e with backendRef := some backendRef }
  | .ready backendRef url => markReady backendRef url
  | .failed error => markFailed error

namespace EnvironmentRow

variable {e : EnvironmentRow}

theorem Consistent.requestRelease (h : e.Consistent) : e.requestRelease.Consistent := by
  by_cases released : e.status = .released
  · refine ⟨?_,?_,?_,fun _ => h.released released⟩ <;>
      simp [EnvironmentRow.requestRelease,released]
  · refine ⟨?_,?_,?_,?_⟩ <;> simp [EnvironmentRow.requestRelease,released]

theorem Consistent.markReleased (h : e.desiredState = .released) : e.markReleased.Consistent := by
  refine ⟨?_,?_,?_,?_⟩ <;> simp [EnvironmentRow.markReleased,h]

theorem reactivate_consistent (e : EnvironmentRow) : e.reactivate.Consistent := by
  refine ⟨?_,?_,?_,?_⟩ <;> simp [reactivate]

theorem Consistent.report (h : e.Consistent) (active : e.desiredState = .active)
    (report : EnvironmentReport) : (report.apply e).Consistent := by
  cases report with
  | locator backendRef => exact ⟨h.active_iff,h.released_iff,fun hs => ⟨rfl,(h.ready hs).2⟩,
      h.released⟩
  | ready backendRef url =>
    refine ⟨?_,?_,?_,?_⟩ <;> simp [EnvironmentReport.apply,markReady,active]
  | failed error =>
    refine ⟨?_,?_,?_,?_⟩ <;> simp [EnvironmentReport.apply,markFailed,active]

theorem report_desiredState (report : EnvironmentReport) (e : EnvironmentRow) :
    (report.apply e).desiredState = e.desiredState := by
  cases report <;> rfl

theorem report_generation (report : EnvironmentReport) (e : EnvironmentRow) :
    (report.apply e).generation = e.generation := by
  cases report <;> rfl

theorem report_same (report : EnvironmentReport) (e : EnvironmentRow) :
    Same e (report.apply e) := by
  cases report <;> exact ⟨rfl,rfl⟩

theorem requestRelease_released (h : e.status = .released) :
    e.requestRelease.status = .released := by
  simp [requestRelease,h]

end EnvironmentRow

structure Tenancy where
  status : JobState
  environment : Option EnvironmentRow

namespace Tenancy

inductive Step : Bool → Tenancy → Tenancy → Prop where
  | stay (x : Tenancy) : Step false x x
  | worked {status status' : JobState} (environment : Option EnvironmentRow)
      (before : status.Working) (after : status'.Working) :
      Step false ⟨status, environment⟩ ⟨status', environment⟩
  | cancelling {status : JobState} (environment : Option EnvironmentRow)
      (before : status.Working) : Step false ⟨status, environment⟩ ⟨.cancelling, environment⟩
  | created {e : EnvironmentRow} (generation : e.generation = 1) (active : e.desiredState = .active)
      (provisioning : e.status = .provisioning) :
      Step false ⟨.running, none⟩ ⟨.running, some e⟩
  | reported (report : EnvironmentReport) {e : EnvironmentRow} (active : e.desiredState = .active) :
      Step false ⟨.running, some e⟩ ⟨.running, some (report.apply e)⟩
  | finished {status status' : JobState} (environment : Option EnvironmentRow)
      (before : status.Working) (after : status'.Terminal) :
      Step false ⟨status, environment⟩ ⟨status', environment.map requestRelease⟩
  | acknowledged {environment : Option EnvironmentRow}
      (released : ∀ e ∈ environment, e.status = .released) :
      Step false ⟨.cancelling, environment⟩ ⟨.cancelled, environment⟩
  | releaseRequested {status : JobState} (e : EnvironmentRow)
      (closing : status = .cancelling ∨ status.Terminal) :
      Step false ⟨status, some e⟩ ⟨status, some e.requestRelease⟩
  | released (status : JobState) {e : EnvironmentRow} (desired : e.desiredState = .released) :
      Step false ⟨status, some e⟩ ⟨status, some e.markReleased⟩
  | continued (environment : Option EnvironmentRow)
      (released : ∀ e ∈ environment, e.status = .released) :
      Step true ⟨.succeeded, environment⟩ ⟨.queued, environment.map reactivate⟩

structure Valid (x : Tenancy) : Prop where
  consistent : ∀ e ∈ x.environment, e.Consistent
  desired : ∀ e ∈ x.environment, ∀ d ∈ x.status.desired, e.desiredState = d

variable {continued : Bool} {x y : Tenancy}

theorem valid_none (status : JobState) : Valid ⟨status, none⟩ := ⟨by simp,by simp⟩

theorem valid_some {status : JobState} {e : EnvironmentRow} :
    Valid ⟨status, some e⟩ ↔ e.Consistent ∧ ∀ d ∈ status.desired, e.desiredState = d := by
  constructor
  · intro h
    exact ⟨h.consistent e rfl,h.desired e rfl⟩
  · rintro ⟨consistent,desired⟩
    exact ⟨fun _ he => Option.some.inj he ▸ consistent,fun _ he => Option.some.inj he ▸ desired⟩

theorem Valid.step (h : x.Valid) (step : Step continued x y) : y.Valid := by
  cases step with
  | stay => exact h
  | worked environment before after =>
    refine ⟨h.consistent,fun e he d hd => h.desired e he d ?_⟩
    rwa [before.desired,← after.desired]
  | cancelling environment before => exact ⟨h.consistent,fun _ _ d hd => by cases hd⟩
  | created generation active provisioning =>
    refine valid_some.mpr ⟨⟨?_,?_,?_,?_⟩,fun d hd => ?_⟩
    · simp [active,provisioning]
    · simp [active,provisioning]
    · simp [provisioning]
    · simp [provisioning]
    · rw [active]
      exact Option.some.inj hd
  | reported report active =>
    obtain ⟨consistent,desired⟩ := valid_some.mp h
    refine valid_some.mpr ⟨consistent.report active report,fun d hd => ?_⟩
    rw [report_desiredState]
    exact desired d hd
  | finished environment before after =>
    cases environment with
    | none => exact valid_none _
    | some e =>
      refine valid_some.mpr ⟨(valid_some.mp h).1.requestRelease,fun d hd => ?_⟩
      rw [after.desired] at hd
      exact Option.some.inj hd
  | acknowledged released =>
    refine ⟨h.consistent,fun e he d hd => ?_⟩
    rw [(h.consistent e he).released_iff.mpr (Or.inr (released e he))]
    exact Option.some.inj hd
  | releaseRequested e closing =>
    refine valid_some.mpr ⟨(valid_some.mp h).1.requestRelease,fun d hd => ?_⟩
    rcases closing with rfl | terminal
    · cases hd
    · rw [terminal.desired] at hd
      exact Option.some.inj hd
  | released status desired =>
    exact valid_some.mpr ⟨.markReleased desired,(valid_some.mp h).2⟩
  | continued environment =>
    cases environment with
    | none => exact valid_none _
    | some e =>
      exact valid_some.mpr ⟨e.reactivate_consistent,fun d hd => Option.some.inj hd⟩

theorem Step.kept {e : EnvironmentRow} (step : Step continued x y) (h : x.environment = some e) :
    ∃ e', y.environment = some e' ∧ e.Same e' := by
  cases step with
  | stay | worked | cancelling | acknowledged => exact ⟨e,h,rfl,rfl⟩
  | created => cases h
  | reported report active =>
    cases h
    exact ⟨_,rfl,report_same report e⟩
  | finished | continued | releaseRequested | released =>
    cases h
    exact ⟨_,rfl,rfl,rfl⟩

def generation (x : Tenancy) : Nat := (x.environment.map (·.generation)).getD 1

theorem Step.generation (step : Step continued x y) :
    y.generation =
      x.generation + if continued = true ∧ x.environment.isSome then 1 else 0 := by
  cases step with
  | created first => simp [Tenancy.generation,first]
  | reported report active => simp [Tenancy.generation,report_generation]
  | finished environment =>
    cases environment <;> simp [Tenancy.generation,requestRelease]
  | continued environment =>
    cases environment <;> simp [Tenancy.generation,reactivate]
  | stay | worked | cancelling | acknowledged | releaseRequested | released =>
    simp [Tenancy.generation,requestRelease,markReleased]

structure Closed (x : Tenancy) : Prop where
  status : x.status = .cancelled
  released : ∀ e ∈ x.environment, e.status = .released

theorem Closed.step (h : x.Closed) (step : Step continued x y) : y.Closed := by
  cases step with
  | stay => exact h
  | worked environment before | cancelling environment before | finished environment before =>
    rcases before with before | before <;> exact absurd (before.symm.trans h.status) (by decide)
  | created | reported | acknowledged | continued => exact JobState.noConfusion h.status
  | releaseRequested e =>
    refine ⟨h.status,fun _ he => ?_⟩
    cases he
    exact requestRelease_released (h.released e rfl)
  | released =>
    refine ⟨h.status,fun _ he => ?_⟩
    cases he
    rfl

end Tenancy

end Coordinator
