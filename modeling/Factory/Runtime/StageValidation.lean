import Factory.Extension.PlannedState
import Factory.Runtime.Stages

namespace Runtime

open Extension Result Text

theorem requireText_ok {field value : String} {u : Unit} :
    requireText field value = .ok u ↔ isBlank value = false := by
  simp [requireText,ensure_ok]

theorem requireOptionalText_ok {field : String} {value : Option String} {text : String} :
    requireOptionalText field value = .ok text ↔
      value = some text ∧ isBlank text = false := by
  simp only [requireOptionalText,bind_ok,okOr_ok,requireText_ok,pure_ok,exists_const]
  constructor
  · rintro ⟨found,rfl,nonblank,rfl⟩
    exact ⟨rfl,nonblank⟩
  · rintro ⟨rfl,nonblank⟩
    exact ⟨text,rfl,nonblank,rfl⟩

theorem validateUnitTexts_ok (units : List FactoryWorkUnit) (ids : List String) :
    validateUnitTexts units ids = .ok () ↔
      (∀ unit ∈ units, isBlank unit.id = false ∧ isBlank unit.title = false ∧
          isBlank unit.description = false) ∧
        (units.map (·.id)).Nodup ∧ ∀ unit ∈ units, unit.id ∉ ids := by
  refine scan_ok (fun _ => rfl) (fun unit rest seen => ?_) units ids
  simp only [validateUnitTexts,bind_ok,requireText_ok,ensure_ok,exists_const,and_assoc]

theorem validateUnitDependencies_ok (unitId : String) (ids dependencies seen : List String) :
    validateUnitDependencies unitId ids dependencies seen = .ok () ↔
      (∀ dependency ∈ dependencies, isBlank dependency = false ∧ dependency ≠ unitId ∧
          dependency ∈ ids) ∧
        (dependencies.map id).Nodup ∧ ∀ dependency ∈ dependencies, dependency ∉ seen := by
  refine scan_ok (fun _ => rfl) (fun dependency rest seen => ?_) dependencies seen
  simp only [validateUnitDependencies,bind_ok,requireText_ok,ensure_ok,exists_const,id,
    and_assoc]

theorem validateReportFindings_ok (unitIds : List String) (findings : List FactoryReviewFinding)
    (ids : List String) :
    validateReportFindings unitIds findings ids = .ok () ↔
      (∀ finding ∈ findings, isBlank finding.id = false ∧
          isBlank finding.unitId = false ∧ isBlank finding.title = false ∧
          isBlank finding.evidence = false ∧ isBlank finding.recommendation = false ∧
          finding.unitId ∈ unitIds) ∧
        (findings.map (·.id)).Nodup ∧ ∀ finding ∈ findings, finding.id ∉ ids := by
  refine scan_ok (fun _ => rfl) (fun finding rest seen => ?_) findings ids
  simp only [validateReportFindings,bind_ok,requireText_ok,ensure_ok,exists_const,and_assoc]
  exact ⟨fun ⟨id,unitId,title,evidence,recommendation,fresh,known,later⟩ =>
      ⟨id,unitId,title,evidence,recommendation,known,fresh,later⟩,
    fun ⟨id,unitId,title,evidence,recommendation,known,fresh,later⟩ =>
      ⟨id,unitId,title,evidence,recommendation,fresh,known,later⟩⟩

theorem validateRecords_ok (findings : List (String × String))
    (records : List FactoryRemediationRecord) (ids : List String) :
    validateRecords findings records ids = .ok () ↔
      (∀ record ∈ records, isBlank record.findingId = false ∧
          isBlank record.unitId = false ∧ isBlank record.rationale = false ∧
          findings.reverse.lookup record.findingId = some record.unitId) ∧
        (records.map (·.findingId)).Nodup ∧ ∀ record ∈ records, record.findingId ∉ ids := by
  refine scan_ok (fun _ => rfl) (fun record rest seen => ?_) records ids
  simp only [validateRecords,bind_ok,requireText_ok,ensure_ok,okOr_ok,exists_const,
    and_assoc]
  constructor
  · rintro ⟨findingId,unitId,rationale,fresh,unit,found,rfl,later⟩
    exact ⟨findingId,unitId,rationale,found,fresh,later⟩
  · rintro ⟨findingId,unitId,rationale,found,fresh,later⟩
    exact ⟨findingId,unitId,rationale,fresh,record.unitId,found,rfl,later⟩

variable {order : List String → List String} {units : List WorkUnitArgs} {state next : FactoryState}

theorem graph_args (workUnits : List FactoryWorkUnit) :
    workUnits.map (fun unit => (unit.id, unit.dependsOn)) =
      dependencyGraph (workUnits.map FactoryWorkUnit.args) := by
  rw [dependencyGraph,List.map_map]
  rfl

theorem validateReviewReport_of {report : FactoryReviewReport} {baseline : Option ReviewBaseline}
    (reported : Reported (state.workUnits.map (·.id)) report)
    (newer : ∀ captured, baseline = some captured → captured.generation < report.generation ∧
      report.recordedParentThreadId = some captured.parentThreadId ∧
      report.recordedParentTurnId = some captured.parentTurnId) :
    validateReviewReport report state baseline = .ok () := by
  obtain ⟨turnId,threadId,context,detached,turn,thread,parentThread,parentTurn,kind⟩ :=
    reported.provenance
  have generation : validateGeneration report baseline = .ok () := by
    simp only [validateGeneration,bind_ok,ensure_ok,exists_const]
    refine ⟨reported.generation.ne',?_⟩
    cases baseline with
    | none => rfl
    | some captured => exact ensure_ok.mpr (newer captured rfl).1
  have parent : validateParent context.parentThreadId context.parentTurnId baseline = .ok () := by
    cases baseline with
    | none => rfl
    | some captured =>
      obtain ⟨_,sameThread,sameTurn⟩ := newer captured rfl
      simp only [validateParent,bind_ok,ensure_ok,exists_const]
      exact ⟨Option.some.inj (parentThread.symm.trans sameThread),
        Option.some.inj (parentTurn.symm.trans sameTurn)⟩
  have review : isBlank "review" = false := by decide
  have provenance : validateProvenance report baseline = .ok () := by
    simp only [validateProvenance,bind_ok,requireOptionalText_ok,ensure_ok,exists_const]
    exact ⟨turnId,⟨turn,detached.turn⟩,threadId,⟨thread,detached.thread⟩,
      context.parentThreadId,⟨parentThread,detached.parentThread⟩,context.parentTurnId,
      ⟨parentTurn,detached.parentTurn⟩,"review",⟨kind,review⟩,rfl,detached.separate,parent⟩
  simp only [validateReviewReport,bind_ok,requireText_ok,ensure_ok,exists_const]
  refine ⟨(),generation,reported.summary,(),provenance,fun rejected => ?_,fun approved => ?_,
    ?_⟩
  · exact rejected.1 (reported.verdict.mpr rejected.2)
  · exact approved.2 (reported.verdict.mp approved.1)
  · refine (validateReportFindings_ok _ report.findings []).mpr
      ⟨fun finding hit => ?_,reported.distinct,by simp⟩
    have texts := reported.texts finding hit
    exact ⟨texts.id.1,texts.unitId.1,texts.title.1,texts.evidence.1,texts.recommendation.1,
      texts.known⟩

theorem capture_ok {parentThreadId parentTurnId : String}
    (thread : isBlank parentThreadId = false) (turn : isBlank parentTurnId = false) :
    ReviewBaseline.capture state parentThreadId parentTurnId =
      .ok ⟨(state.review.map (·.generation)).getD 0, parentThreadId, parentTurnId⟩ := by
  simp only [ReviewBaseline.capture,ReviewBaseline.fromParts,bind_ok,requireText_ok,pure_ok,
    exists_const]
  exact ⟨thread,turn,trivial⟩

theorem recordedGeneration_newer {report : FactoryReviewReport} (h : Planned units state)
    (below : state.revision < u64Max)
    (new : ∀ current, state.review = some current →
      current.recordedTurnId ≠ report.recordedTurnId) :
    (state.review.map (·.generation)).getD 0 < Planned.recordedGeneration report state := by
  have bound := h.generation
  unfold Planned.recordedGeneration saturatingSucc
  cases found : state.review with
  | none =>
    have other : state.sameTurn report = false := by simp [FactoryState.sameTurn,found]
    have positive : 0 < u64Max := by decide
    simp only [other,Option.map_none,Option.getD_none,Bool.false_eq_true,if_false]
    omega
  | some current =>
    have other : state.sameTurn report = false := by
      simp [FactoryState.sameTurn,found,new current found]
    have same : state.currentGeneration = current.generation := by
      simp [FactoryState.currentGeneration,found]
    rw [same] at bound ⊢
    simp only [other,Option.map_some,Option.getD_some,Bool.false_eq_true,if_false]
    omega

section Permuting

variable (permutes : ∀ ids, (order ids).Perm ids)

include permutes

theorem validateDecomposition_of
    (decomposed : Decomposed (state.workUnits.map FactoryWorkUnit.args)) :
    validateDecomposition order state = .ok () := by
  have args : ∀ unit ∈ state.workUnits,
      unit.args ∈ state.workUnits.map FactoryWorkUnit.args := fun unit => List.mem_map_of_mem
  have listed : ∀ unit ∈ state.workUnits, (unit.id, unit.dependsOn) ∈
      dependencyGraph (state.workUnits.map FactoryWorkUnit.args) := fun unit hit => by
    rw [← graph_args]
    exact List.mem_map_of_mem hit
  have ids : Dependencies.keys (dependencyGraph (state.workUnits.map FactoryWorkUnit.args)) =
      state.workUnits.map (·.id) := by
    rw [keys_dependencyGraph,map_id_args]
  simp only [validateDecomposition,bind_ok,ensure_ok,exists_const]
  refine ⟨fun empty => decomposed.nonempty (by rw [empty]; rfl),(),?_,(),?_,?_⟩
  · refine (validateUnitTexts_ok state.workUnits []).mpr ⟨fun unit hit => ?_,?_,by simp⟩
    · have texts := decomposed.texts unit.args (args unit hit)
      exact ⟨texts.id.1,texts.title.1,texts.description.1⟩
    · rw [← ids]
      exact decomposed.graph.distinct
  · refine forM_ok_of fun unit hit => ?_
    refine (validateUnitDependencies_ok unit.id _ unit.dependsOn []).mpr
      ⟨fun dependency needed => ?_,?_,by simp⟩
    · obtain ⟨bounded,other⟩ := decomposed.dependencies unit.args (args unit hit) dependency needed
      refine ⟨bounded.1,other,?_⟩
      rw [← ids]
      exact decomposed.graph.known _ (listed unit hit) needed
    · rw [List.map_id]
      exact decomposed.graph.unrepeated _ (listed unit hit)
  · rw [validateAcyclic,ensure_ok,graph_args]
    exact (Dependencies.isAcyclic_iff decomposed.graph permutes).mpr decomposed.acyclic

theorem validateExecute_iff (h : Planned units state) :
    validateExecute order state = .ok () ↔ ∀ unit ∈ state.workUnits, unit.status = .completed := by
  have decomposed : Decomposed (state.workUnits.map FactoryWorkUnit.args) :=
    h.fixed.symm ▸ h.decomposed
  simp only [validateExecute,bind_ok]
  constructor
  · rintro ⟨_,_,executed⟩ unit hit
    have checked := forM_ok executed unit hit
    simp only [bind_ok,ensure_ok,exists_const] at checked
    exact checked.1
  · intro finished
    refine ⟨(),validateDecomposition_of permutes decomposed,forM_ok_of fun unit hit => ?_⟩
    obtain ⟨summary,found,nonblank⟩ := h.summarised unit hit (finished unit hit)
    simp only [bind_ok,ensure_ok,okOr_ok,requireText_ok,exists_const]
    exact ⟨finished unit hit,summary,found,nonblank⟩

theorem validatePlan_of {iteration : List String → List String}
    (iterates : ∀ ids, (iteration ids).Perm ids)
    (h : (FactoryToolCall.decompose iteration units).apply state = .ok next) :
    validatePlan order next = .ok () := by
  have planned := Planned.of_decompose iterates h
  obtain ⟨changed,valid,accepted,rfl⟩ := FactoryToolCall.apply_ok h
  simp only [FactoryToolCall.mutate,decompose,bind_ok,ensure_ok,pure_ok,exists_const]
    at accepted
  obtain ⟨_,rfl⟩ := accepted
  have decomposed : Decomposed (_ : List WorkUnitArgs) := planned.fixed.symm ▸ planned.decomposed
  simp only [validatePlan,bind_ok,ensure_ok]
  refine ⟨(),validateDecomposition_of permutes decomposed,(),forM_ok_of fun unit hit => ?_,
    trivial,trivial,trivial⟩
  obtain ⟨_,_,rfl⟩ := List.mem_map.mp hit
  rfl

theorem validateReview_of (h : Planned units state)
    (finished : ∀ unit ∈ state.workUnits, unit.status = .completed)
    (below : state.revision < u64Max) {turnId threadId : String}
    {context : DetachedReviewThreadContext} {args : ReviewArgs}
    (detached : Detached turnId threadId context)
    (new : ∀ current, state.review = some current → current.recordedTurnId ≠ some turnId)
    (accepted : (FactoryToolCall.review (detachedProvenance turnId threadId context) args).apply
      state = .ok next) :
    ∃ baseline, ReviewBaseline.capture state context.parentThreadId context.parentTurnId =
        .ok baseline ∧ validateReview order next baseline = .ok () := by
  refine ⟨_,capture_ok detached.parentThread detached.parentTurn,?_⟩
  have admissible : (FactoryToolCall.review (detachedProvenance turnId threadId context)
      args).Admissible := ⟨turnId,threadId,context,rfl,detached⟩
  have planned := h.step admissible accepted
  obtain ⟨changed,_,mutated,rfl⟩ := FactoryToolCall.apply_ok accepted
  obtain ⟨workUnits,recorded,_⟩ := (Planned.review_ok mutated).fields
  simp only [validateReview,bind_ok,okOr_ok]
  refine ⟨(),(validateExecute_iff permutes planned).mpr ?_,_,recorded,?_⟩
  · rw [workUnits]
    exact finished
  · refine validateReviewReport_of ?_ fun captured same => ?_
    · rw [planned.ids]
      exact planned.reported _ recorded
    · cases same
      exact ⟨recordedGeneration_newer h below new,rfl,rfl⟩

theorem validateRemediation_iff (h : Planned units state)
    (finished : ∀ unit ∈ state.workUnits, unit.status = .completed)
    {dispositions : List FactoryRemediationRecord}
    (accepted : (FactoryToolCall.remediation dispositions).apply state = .ok next) :
    ∃ report, state.review = some report ∧
      (validateRemediation order next = .ok () ↔ dispositions.length = report.findings.length) := by
  have admissible : (FactoryToolCall.remediation dispositions).Admissible := trivial
  have planned := h.step admissible accepted
  obtain ⟨changed,_,mutated,rfl⟩ := FactoryToolCall.apply_ok accepted
  obtain ⟨report,found,nonempty,texts,distinct,rfl⟩ := Planned.remediation_ok mutated
  have reported := h.reported report found
  have unapproved : report.verdict ≠ .approve := by
    intro approve
    obtain ⟨record,hit⟩ := List.exists_mem_of_ne_nil dispositions nonempty
    have known := (texts record hit).known
    rw [reported.verdict.mp approve] at known
    cases known
  have executed := (validateExecute_iff permutes planned).mpr finished
  have valid := validateReviewReport_of (planned.ids.symm ▸ reported) (fun _ => nofun :
    ∀ captured, (none : Option ReviewBaseline) = some captured → _)
  have records := (validateRecords_ok
    (report.findings.map (fun finding => (finding.id, finding.unitId))) dispositions []).mpr
    ⟨fun record hit => ⟨(texts record hit).findingId.1,(texts record hit).unitId.1,
      (texts record hit).rationale.1,(texts record hit).known⟩,distinct,fun _ _ => nofun⟩
  have agreed : validateDispositions report dispositions = .ok () ↔
      dispositions.length = report.findings.length := by
    simp only [validateDispositions,unapproved,if_false,bind_ok,ensure_ok,exists_const]
    exact ⟨fun checked => checked.1,fun length => ⟨length,records⟩⟩
  refine ⟨report,found,?_⟩
  simp only [validateRemediation,bind_ok,okOr_ok]
  constructor
  · rintro ⟨_,_,current,same,_,_,checked⟩
    obtain rfl : report = current := Option.some.inj (found.symm.trans same)
    exact agreed.mp checked
  · intro length
    exact ⟨(),executed,report,found,(),valid,agreed.mpr length⟩

end Permuting

end Runtime
