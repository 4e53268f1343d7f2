import Factory.Extension.ToolRun
import Factory.Library.Table

namespace Extension

open Result List FactoryToolCall

def FactoryWorkUnit.args (unit : FactoryWorkUnit) : WorkUnitArgs :=
  ⟨unit.id, unit.title, unit.description, unit.dependsOn⟩

structure Reported (unitIds : List String) (report : FactoryReviewReport) : Prop where
  generation : 0 < report.generation
  summary : Text.isBlank report.summary = false
  provenance : ∃ turnId threadId context, Detached turnId threadId context ∧
    report.recordedTurnId = some turnId ∧ report.recordedThreadId = some threadId ∧
    report.recordedParentThreadId = some context.parentThreadId ∧
    report.recordedParentTurnId = some context.parentTurnId ∧
    report.recordedSubagentKind = some "review"
  verdict : report.verdict = .approve ↔ report.findings = []
  texts : ∀ finding ∈ report.findings, FindingTexts unitIds finding
  distinct : (report.findings.map (·.id)).Nodup

structure Planned (units : List WorkUnitArgs) (state : FactoryState) : Prop where
  decomposed : Decomposed units
  fixed : state.workUnits.map FactoryWorkUnit.args = units
  summarised : ∀ unit ∈ state.workUnits, unit.status = .completed →
    ∃ summary, unit.progressSummary = some summary ∧ Text.isBlank summary = false
  closed : ∀ unit ∈ state.workUnits, unit.status = .completed →
    ∀ other ∈ state.workUnits, other.id ∈ unit.dependsOn → other.status = .completed
  reported : ∀ report, state.review = some report → Reported (units.map (·.id)) report
  generation : state.currentGeneration ≤ state.revision
  revision : state.revision ≤ u64Max

theorem map_id_args (units : List FactoryWorkUnit) :
    (units.map FactoryWorkUnit.args).map (·.id) = units.map (·.id) := by
  rw [map_map]
  rfl

namespace Planned

variable {units : List WorkUnitArgs} {state next : FactoryState}

theorem le_saturatingSucc {n m : Nat} (h : n ≤ m) (bound : m ≤ u64Max) :
    n ≤ saturatingSucc m := by
  unfold saturatingSucc
  omega

theorem of_decompose {order : List String → List String}
    (permutes : ∀ ids, (order ids).Perm ids)
    (h : (FactoryToolCall.decompose order units).apply state = .ok next) :
    Planned units next := by
  obtain ⟨changed,valid,accepted,rfl⟩ := FactoryToolCall.apply_ok h
  simp only [FactoryToolCall.mutate,decompose,bind_ok,ensure_ok,pure_ok,exists_const]
    at accepted
  obtain ⟨_,rfl⟩ := accepted
  have pending : ∀ unit ∈ units.map (fun unit : WorkUnitArgs =>
      (⟨unit.id,unit.title,unit.description,unit.dependsOn,.pending,none⟩ : FactoryWorkUnit)),
      unit.status ≠ .completed := by
    intro unit hit
    obtain ⟨_,_,rfl⟩ := mem_map.mp hit
    simp
  refine ⟨validateDecomposition_ok permutes valid,?_,fun unit hit done => ?_,
    fun unit hit done => ?_,by simp,Nat.zero_le _,Nat.min_le_right _ _⟩
  · rw [map_map]
    exact map_id units
  · exact absurd done (pending unit hit)
  · exact absurd done (pending unit hit)

def completed (summary : String) (unit : FactoryWorkUnit) : FactoryWorkUnit :=
  { unit with status := .completed, progressSummary := some summary }

variable {workUnits : List FactoryWorkUnit} {unit : FactoryWorkUnit} {provenance : ReviewProvenance}
  {context : DetachedReviewThreadContext} {call : FactoryToolCall}

theorem completeUnit_eq (unitId summary : String) (distinct : (workUnits.map (·.id)).Nodup) :
    completeUnit unitId summary workUnits =
      workUnits.map (fun unit => if unit.id = unitId then completed summary unit else unit) := by
  induction workUnits with
  | nil => rfl
  | cons unit rest ih =>
    obtain ⟨single,distinct⟩ := nodup_cons.mp distinct
    rw [completeUnit,map_cons]
    split
    · next same =>
        have others : ∀ other ∈ rest, other.id ≠ unitId := fun other hit clash =>
          single (mem_map.mpr ⟨other,hit,clash.trans same.symm⟩)
        have kept : rest.map (fun unit =>
            if unit.id = unitId then completed summary unit else unit) = rest := by
          refine (map_congr_left fun other hit => ?_).trans (map_id rest)
          exact if_neg (others other hit)
        rw [kept]
        rfl
    · rw [ih distinct]

structure Progressed (args : ProgressArgs) (state changed : FactoryState)
    (unit : FactoryWorkUnit) : Prop where
  known : unit ∈ state.workUnits
  id : unit.id = args.unitId
  unfinished : unit.status ≠ .completed
  dependencies : ∀ other ∈ state.workUnits, other.id ∈ unit.dependsOn → other.status = .completed
  changed : changed =
    { state with workUnits := completeUnit args.unitId args.summary state.workUnits }

theorem incompleteDependencies_nil {dependsOn : List String} :
    incompleteDependencies workUnits dependsOn = [] ↔
      ∀ other ∈ workUnits, other.id ∈ dependsOn → other.status = .completed := by
  simp only [incompleteDependencies,filter_eq_nil_iff,any_eq_true,decide_eq_true_eq,
    not_exists,not_and,not_not]
  exact ⟨fun h other known needed => h other.id needed other known rfl,
    fun h dependency needed other known same => h other known (same ▸ needed)⟩

theorem progress_ok {args : ProgressArgs} (h : progress args state = .ok next) :
    ∃ unit, Progressed args state next unit := by
  simp only [progress,bind_ok,ensure_ok,okOr_ok,pure_ok,exists_const] at h
  obtain ⟨_,unit,found,unfinished,dependencies,rfl⟩ := h
  exact ⟨unit,mem_of_find?_eq_some found,by simpa using find?_some found,unfinished,
    incompleteDependencies_nil.mp dependencies,rfl⟩

theorem completed_args (summary : String) (unitId : String) (unit : FactoryWorkUnit) :
    (if unit.id = unitId then completed summary unit else unit).args = unit.args := by
  split
  · rfl
  · rfl

theorem status_kept {summary unitId : String} (done : unit.status = .completed) :
    (if unit.id = unitId then completed summary unit else unit).status = .completed := by
  split
  · rfl
  · exact done

def reviewReport (provenance : ReviewProvenance) (args : ReviewArgs) (generation : Nat) :
    FactoryReviewReport :=
  ⟨generation, provenance.turnId, provenance.threadId, provenance.parentThreadId,
    provenance.parentTurnId, provenance.subagentKind, args.verdict, args.summary, args.findings⟩

structure Reviewed (provenance : ReviewProvenance) (args : ReviewArgs)
    (state changed : FactoryState) : Prop where
  summary : Bounded args.summary maxSummaryChars
  verdict : args.verdict = .approve ↔ args.findings = []
  texts : ∀ finding ∈ args.findings, FindingTexts (state.workUnits.map (·.id)) finding
  distinct : (args.findings.map (·.id)).Nodup
  changed : changed = state.recordReview (reviewReport provenance args 0)

theorem review_ok {args : ReviewArgs} (h : review provenance args state = .ok next) :
    Reviewed provenance args state next := by
  simp only [review,validateReview,bind_ok,requireBoundedText_ok,ensure_ok,pure_ok,
    exists_const] at h
  obtain ⟨⟨⟩,⟨summary,_,rejected,approved,findings⟩,rfl⟩ := h
  obtain ⟨texts,distinct,_⟩ := (validateFindings_ok _ args.findings []).mp findings
  refine ⟨summary,⟨fun approve => ?_,fun empty => ?_⟩,texts,distinct,rfl⟩
  · exact not_not.mp fun some => approved ⟨approve,some⟩
  · exact not_not.mp fun other => rejected ⟨other,empty⟩

def recordedGeneration (report : FactoryReviewReport) (state : FactoryState) : Nat :=
  if state.sameTurn report then max state.currentGeneration 1
  else saturatingSucc state.currentGeneration

theorem recordReview_fields (report : FactoryReviewReport) (state : FactoryState) :
    (state.recordReview report).workUnits = state.workUnits ∧
      (state.recordReview report).review =
        some { report with generation := recordedGeneration report state } ∧
      (state.recordReview report).revision = state.revision := by
  unfold FactoryState.recordReview recordedGeneration
  split
  · exact ⟨rfl,rfl,rfl⟩
  · unfold FactoryState.closeReviewCycle
    split
    · exact ⟨rfl,rfl,rfl⟩
    · exact ⟨rfl,rfl,rfl⟩
    · exact ⟨rfl,rfl,rfl⟩

theorem recordedGeneration_pos (report : FactoryReviewReport) (state : FactoryState) :
    0 < recordedGeneration report state := by
  unfold recordedGeneration saturatingSucc u64Max
  split
  · omega
  · omega

theorem recordedGeneration_le (report : FactoryReviewReport)
    (h : state.currentGeneration ≤ state.revision) (bound : state.revision ≤ u64Max) :
    recordedGeneration report state ≤ saturatingSucc state.revision := by
  unfold recordedGeneration saturatingSucc
  have positive : 1 ≤ u64Max := by decide
  split
  · omega
  · omega

theorem Reviewed.fields {args : ReviewArgs} (h : Reviewed provenance args state next) :
    next.workUnits = state.workUnits ∧
      next.review = some (reviewReport provenance args
        (recordedGeneration (reviewReport provenance args 0) state)) ∧
      next.revision = state.revision := by
  rw [h.changed]
  exact recordReview_fields _ state

theorem Reviewed.reported {turnId threadId : String} {args : ReviewArgs}
    (h : Reviewed (detachedProvenance turnId threadId context) args state next)
    (detached : Detached turnId threadId context) {generation : Nat} (positive : 0 < generation) :
    Reported (state.workUnits.map (·.id))
      (reviewReport (detachedProvenance turnId threadId context) args generation) :=
  ⟨positive,h.summary.1,⟨turnId,threadId,context,detached,rfl,rfl,rfl,rfl,rfl⟩,
    h.verdict,h.texts,h.distinct⟩

theorem remediation_ok {dispositions : List FactoryRemediationRecord}
    (h : remediation dispositions state = .ok next) :
    ∃ report, state.review = some report ∧ dispositions ≠ [] ∧
      (∀ record ∈ dispositions, DispositionTexts
        (report.findings.map (fun finding => (finding.id, finding.unitId))) record) ∧
      (dispositions.map (·.findingId)).Nodup ∧
      next = { state with remediations := dispositions } := by
  simp only [remediation,validateRemediations,bind_ok,ensure_ok,okOr_ok,pure_ok,
    exists_const] at h
  obtain ⟨⟨⟩,⟨nonempty,_,report,found,records⟩,rfl⟩ := h
  obtain ⟨texts,distinct,_⟩ := (validateDispositions_ok _ dispositions []).mp records
  exact ⟨report,found,nonempty,texts,distinct,rfl⟩

section PlannedUnits

variable (h : Planned units state)

include h

theorem ids : state.workUnits.map (·.id) = units.map (·.id) := by
  rw [← h.fixed,map_id_args]

theorem distinct : (state.workUnits.map (·.id)).Nodup := by
  rw [h.ids,← keys_dependencyGraph]
  exact h.decomposed.graph.distinct

theorem progress_map (args : ProgressArgs) :
    completeUnit args.unitId args.summary state.workUnits =
      state.workUnits.map (fun unit =>
        if unit.id = args.unitId then completed args.summary unit else unit) :=
  completeUnit_eq _ _ h.distinct

theorem of_progress {args : ProgressArgs} (valid : Text.isBlank args.summary = false)
    {revision : Nat} (progressed : Progressed args state next unit)
    (bound : state.revision ≤ revision) (limit : revision ≤ u64Max) :
    Planned units { next with revision := revision } := by
  obtain ⟨known,id,unfinished,dependencies,rfl⟩ := progressed
  refine ⟨h.decomposed,?_,fun done hit isDone => ?_,fun done hit isDone other listed needed => ?_,
    h.reported,h.generation.trans bound,limit⟩
  · rw [h.progress_map,map_map,← h.fixed]
    exact map_congr_left fun unit _ => completed_args _ _ unit
  · rw [h.progress_map] at hit
    obtain ⟨before,before_known,rfl⟩ := mem_map.mp hit
    by_cases same : before.id = args.unitId
    · rw [if_pos same]
      exact ⟨args.summary,rfl,valid⟩
    · rw [if_neg same] at isDone ⊢
      exact h.summarised before before_known isDone
  · rw [h.progress_map] at hit listed
    obtain ⟨before,before_known,rfl⟩ := mem_map.mp hit
    obtain ⟨target,target_known,rfl⟩ := mem_map.mp listed
    have needed : target.id ∈ before.dependsOn := by
      have left := congrArg WorkUnitArgs.dependsOn (completed_args args.summary args.unitId before)
      have right := congrArg WorkUnitArgs.id (completed_args args.summary args.unitId target)
      simp only [FactoryWorkUnit.args] at left right
      rwa [left,right] at needed
    refine status_kept ?_
    by_cases same : before.id = args.unitId
    · rw [inj_on_of_nodup_map h.distinct before_known known (same.trans id.symm)] at needed
      exact dependencies target target_known needed
    · rw [if_neg same] at isDone
      exact h.closed before before_known isDone target target_known needed

theorem of_review {turnId threadId : String} {args : ReviewArgs}
    (detached : Detached turnId threadId context)
    (reviewed : Reviewed (detachedProvenance turnId threadId context) args state next) :
    Planned units { next with revision := saturatingSucc next.revision } := by
  obtain ⟨workUnits,recorded,revision⟩ := reviewed.fields
  refine ⟨h.decomposed,?_,?_,?_,fun report hit => ?_,?_,Nat.min_le_right _ _⟩
  · rw [workUnits]
    exact h.fixed
  · rw [workUnits]
    exact h.summarised
  · rw [workUnits]
    exact h.closed
  · rw [recorded] at hit
    rw [← Option.some.inj hit,← h.ids]
    exact reviewed.reported detached (recordedGeneration_pos _ state)
  · simp only [FactoryState.currentGeneration,recorded,Option.map_some,Option.some_or,
      Option.getD_some,revision]
    exact recordedGeneration_le _ h.generation h.revision

theorem step (admissible : call.Admissible) (accepted : call.apply state = .ok next) :
    Planned units next := by
  obtain ⟨changed,valid,mutated,rfl⟩ := apply_ok accepted
  have bound := le_saturatingSucc (Nat.le_refl _) h.revision
  cases call with
  | decompose order others =>
    simp only [mutate,decompose,bind_ok,ensure_ok,exists_const] at mutated
    have planned := h.fixed
    rw [mutated.1] at planned
    exact absurd planned.symm h.decomposed.nonempty
  | progress args =>
    obtain ⟨unit,progressed⟩ := progress_ok mutated
    simp only [validate,validateProgress,bind_ok,requireBoundedText_ok,
      exists_const] at valid
    have same : changed.revision = state.revision := by rw [progressed.changed]
    rw [same]
    exact h.of_progress valid.2.1 progressed bound (Nat.min_le_right _ _)
  | review provenance args =>
    obtain ⟨turnId,threadId,context,rfl,detached⟩ := admissible
    exact h.of_review detached (review_ok mutated)
  | remediation dispositions =>
    obtain ⟨report,found,_,_,_,rfl⟩ := remediation_ok mutated
    exact ⟨h.decomposed,h.fixed,h.summarised,h.closed,h.reported,h.generation.trans bound,
      Nat.min_le_right _ _⟩

theorem keeps_completed (accepted : call.apply state = .ok next) (known : unit ∈ state.workUnits)
    (done : unit.status = .completed) :
    unit ∈ next.workUnits := by
  obtain ⟨changed,_,mutated,rfl⟩ := apply_ok accepted
  cases call with
  | decompose order others =>
    simp only [mutate,decompose,bind_ok,ensure_ok,exists_const] at mutated
    rw [mutated.1] at known
    cases known
  | progress args =>
    obtain ⟨target,targetKnown,id,unfinished,_,rfl⟩ := progress_ok mutated
    have other : unit.id ≠ args.unitId := by
      intro same
      have clash := inj_on_of_nodup_map h.distinct known targetKnown (same.trans id.symm)
      exact unfinished (clash ▸ done)
    simp only [h.progress_map]
    exact mem_map.mpr ⟨unit,known,if_neg other⟩
  | review provenance args =>
    rw [(review_ok mutated).fields.1]
    exact known
  | remediation dispositions =>
    obtain ⟨_,_,_,_,_,rfl⟩ := remediation_ok mutated
    exact known

theorem progresses {left : FactoryWorkUnit} (known : left ∈ state.workUnits)
    (unfinished : left.status ≠ .completed) :
    ∃ unit ∈ state.workUnits, unit.status ≠ .completed ∧ ∀ summary,
      Bounded summary maxSummaryChars →
        ∃ next, (FactoryToolCall.progress ⟨unit.id, .completed, summary⟩).apply state =
          .ok next := by
  have listed : ∀ unit ∈ state.workUnits,
      (unit.id, unit.dependsOn) ∈ dependencyGraph units := fun unit hit =>
    mem_map.mpr ⟨unit.args,h.fixed ▸ mem_map_of_mem hit,rfl⟩
  obtain ⟨node,nodeKnown,⟨unit,unitKnown,same,waiting⟩,free⟩ :=
    h.decomposed.acyclic.exists_minimal h.decomposed.graph.known
      (fun id => ∃ unit ∈ state.workUnits, unit.id = id ∧ unit.status ≠ .completed)
      ⟨_,listed left known,left,known,rfl,unfinished⟩
  refine ⟨unit,unitKnown,waiting,fun summary valid => ?_⟩
  have dependencies : node.2 = unit.dependsOn := by
    have found := inj_on_of_nodup_map h.decomposed.graph.distinct nodeKnown
      (listed unit unitKnown) same.symm
    rw [found]
  have texts := h.decomposed.texts unit.args (h.fixed ▸ mem_map_of_mem unitKnown)
  have found : state.workUnits.find? (fun other => other.id = unit.id) = some unit :=
    Table.find_key (·.id) h.distinct unitKnown
  have validated : (FactoryToolCall.progress ⟨unit.id,.completed,summary⟩).validate = .ok () := by
    simp only [FactoryToolCall.validate,validateProgress,bind_ok,requireBoundedText_ok,
      exists_const]
    exact ⟨texts.id,valid⟩
  have mutated : (FactoryToolCall.progress ⟨unit.id,.completed,summary⟩).mutate state =
      .ok { state with workUnits := completeUnit unit.id summary state.workUnits } := by
    simp only [FactoryToolCall.mutate,progress,bind_ok,ensure_ok,okOr_ok,pure_ok,
      exists_const]
    refine ⟨trivial,unit,found,waiting,?_,trivial⟩
    refine incompleteDependencies_nil.mpr fun other otherKnown needed => ?_
    by_contra left
    exact free other.id (dependencies ▸ needed) ⟨other,otherKnown,rfl,left⟩
  exact ⟨_,FactoryToolCall.apply_eq validated mutated⟩

end PlannedUnits

theorem after {calls rest : List FactoryToolCall} (h : Planned units (stateAfter calls))
    (admissible : ∀ call ∈ rest, call.Admissible) :
    Planned units (stateAfter (calls ++ rest)) := by
  induction rest generalizing calls with
  | nil =>
    rw [append_nil]
    exact h
  | cons call rest ih =>
    rw [append_cons]
    refine ih ?_ fun later hit => admissible later (mem_cons_of_mem _ hit)
    cases outcome : call.apply (stateAfter calls) with
    | error e =>
      rw [stateAfter_error outcome]
      exact h
    | ok next =>
      rw [stateAfter_ok outcome]
      exact h.step (admissible call mem_cons_self) outcome

end Planned

end Extension
