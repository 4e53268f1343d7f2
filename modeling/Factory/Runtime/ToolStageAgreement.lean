import Factory.Runtime.StageValidation

namespace Runtime

open Extension Result

structure CallLaw (order : List String → List String) (calls : List FactoryToolCall)
    (call : FactoryToolCall) : Prop where
  rejected : ∀ e, call.apply (stateAfter calls) = .error e →
    stateAfter (calls ++ [call]) = stateAfter calls
  accepted : ∀ next, call.apply (stateAfter calls) = .ok next →
    stateAfter (calls ++ [call]) = next ∧
      ((stateAfter calls).revision < u64Max → next.revision = (stateAfter calls).revision + 1)
  decomposes : ∀ iteration units next, call = .decompose iteration units →
    call.apply (stateAfter calls) = .ok next → validatePlan order next = .ok ()

structure PlanLaw (order : List String → List String) (units : List WorkUnitArgs)
    (state : FactoryState) : Prop where
  fixed : state.workUnits.map FactoryWorkUnit.args = units
  graph : Dependencies.WellFormed (dependencyGraph units)
  acyclic : Dependencies.Acyclic (dependencyGraph units)
  closed : ∀ unit ∈ state.workUnits, unit.status = .completed →
    ∀ other ∈ state.workUnits, other.id ∈ unit.dependsOn → other.status = .completed
  kept : ∀ (call : FactoryToolCall) next, call.Admissible → call.apply state = .ok next →
    ∀ unit ∈ state.workUnits, unit.status = .completed → unit ∈ next.workUnits
  executes : validateExecute order state = .ok () ↔
    ∀ unit ∈ state.workUnits, unit.status = .completed
  progresses : (∃ unit ∈ state.workUnits, unit.status ≠ .completed) →
    ∃ unit ∈ state.workUnits, unit.status ≠ .completed ∧ ∀ summary,
      requireBoundedText "summary" summary maxSummaryChars = .ok () →
        ∃ next, (FactoryToolCall.progress ⟨unit.id, .completed, summary⟩).apply state = .ok next
  reviews : (∀ unit ∈ state.workUnits, unit.status = .completed) → state.revision < u64Max →
    ∀ turnId threadId context args next, Detached turnId threadId context →
      (∀ current, state.review = some current → current.recordedTurnId ≠ some turnId) →
      (FactoryToolCall.review (detachedProvenance turnId threadId context) args).apply state =
        .ok next →
      ∃ baseline, ReviewBaseline.capture state context.parentThreadId context.parentTurnId =
        .ok baseline ∧ validateReview order next baseline = .ok ()
  remediates : (∀ unit ∈ state.workUnits, unit.status = .completed) →
    ∀ dispositions next, (FactoryToolCall.remediation dispositions).apply state = .ok next →
      ∃ report, state.review = some report ∧
        (validateRemediation order next = .ok () ↔
          dispositions.length = report.findings.length)

variable {order : List String → List String} {units : List WorkUnitArgs} {state : FactoryState}

theorem callLaw_of (permutes : ∀ ids, (order ids).Perm ids) (calls : List FactoryToolCall)
    {call : FactoryToolCall} (admissible : call.Admissible) : CallLaw order calls call := by
  refine ⟨fun e => stateAfter_error,fun next accepted => ?_,?_⟩
  · exact ⟨stateAfter_ok accepted,FactoryToolCall.apply_revision accepted⟩
  · rintro iteration units next rfl accepted
    exact validatePlan_of permutes admissible accepted

theorem planLaw_of (permutes : ∀ ids, (order ids).Perm ids) (h : Planned units state) :
    PlanLaw order units state := by
  refine ⟨h.fixed,h.decomposed.graph,h.decomposed.acyclic,h.closed,?_,
    validateExecute_iff permutes h,?_,?_,?_⟩
  · exact fun _ _ _ accepted _ known done => h.keeps_completed accepted known done
  · rintro ⟨left,known,unfinished⟩
    obtain ⟨unit,unitKnown,waiting,accepts⟩ := h.progresses known unfinished
    exact ⟨unit,unitKnown,waiting,fun summary valid =>
      accepts summary (requireBoundedText_ok.mp valid)⟩
  · intro finished below turnId threadId context args next detached new accepted
    exact validateReview_of permutes h finished below detached new accepted
  · intro finished dispositions next accepted
    exact validateRemediation_iff permutes h finished accepted

theorem tool_stage_agreement (permutes : ∀ ids, (order ids).Perm ids)
    (calls : List FactoryToolCall) (admissible : ∀ call ∈ calls, call.Admissible) :
    (∀ call, call.Admissible → CallLaw order calls call) ∧
      ∀ before iteration units rest, calls = before ++ .decompose iteration units :: rest →
        (∃ next, (FactoryToolCall.decompose iteration units).apply (stateAfter before) =
          .ok next) → PlanLaw order units (stateAfter calls) := by
  refine ⟨fun call => callLaw_of permutes calls,?_⟩
  rintro before iteration units rest rfl ⟨next,accepted⟩
  have iterates : (FactoryToolCall.decompose iteration units).Admissible :=
    admissible _ (List.mem_append_right before List.mem_cons_self)
  have planned : Planned units (stateAfter (before ++ [.decompose iteration units])) := by
    rw [stateAfter_ok accepted]
    exact Planned.of_decompose iterates accepted
  rw [List.append_cons]
  refine planLaw_of permutes (planned.after fun call hit => ?_)
  exact admissible call (List.mem_append_right before (List.mem_cons_of_mem _ hit))

def chainedUnits : List WorkUnitArgs :=
  [⟨"parser", "Parser", "Parse the input", []⟩, ⟨"cli", "CLI", "Expose it", ["parser"]⟩]

def chainedCalls : List FactoryToolCall :=
  [.decompose id chainedUnits, .progress ⟨"cli", .completed, "done"⟩,
    .progress ⟨"parser", .completed, "done"⟩]

theorem tool_stage_agreement_chained : PlanLaw id chainedUnits (stateAfter chainedCalls) := by
  have admissible : ∀ call ∈ chainedCalls, call.Admissible := by
    intro call hit
    simp only [chainedCalls,List.mem_cons,List.not_mem_nil,or_false] at hit
    rcases hit with rfl | rfl | rfl
    · exact fun _ => List.Perm.refl _
    · trivial
    · trivial
  exact (tool_stage_agreement (fun _ => List.Perm.refl _) chainedCalls admissible).2 [] id
    chainedUnits _ rfl ⟨_,rfl⟩

end Runtime
