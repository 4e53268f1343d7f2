import Factory.Library.Matching
import Factory.Extension.StageCalls
import Factory.Runtime.StageValidation

namespace Runtime

open Extension Result Matching

def Answers (record : FactoryRemediationRecord) (finding : FactoryReviewFinding) : Prop :=
  record.findingId = finding.id ∧ record.unitId = finding.unitId

structure Covers (findings : List FactoryReviewFinding)
    (records : List FactoryRemediationRecord) : Prop where
  pairs : Pairs Answers records findings
  findingId : ∀ record ∈ records, Text.isBlank record.findingId = false
  unitId : ∀ record ∈ records, Text.isBlank record.unitId = false
  rationale : ∀ record ∈ records, Text.isBlank record.rationale = false

variable {order : List String → List String} {state : FactoryState} {report : FactoryReviewReport}
  {baseline : Option ReviewBaseline} {findings : List FactoryReviewFinding}
  {records : List FactoryRemediationRecord}

theorem validateReviewReport_distinct (h : validateReviewReport report state baseline = .ok ()) :
    (report.findings.map (·.id)).Nodup := by
  simp only [validateReviewReport,bind_ok] at h
  obtain ⟨_,_,_,_,_,_,_,_,_,_,checked⟩ := h
  exact ((validateReportFindings_ok _ report.findings []).mp checked).2.1

theorem validateGeneration_unbased {u : Unit} (h : validateGeneration report baseline = .ok u) :
    validateGeneration report none = .ok u := by
  simp only [validateGeneration,bind_ok] at h ⊢
  obtain ⟨checked,positive,_⟩ := h
  exact ⟨checked,positive,rfl⟩

theorem validateProvenance_unbased {u : Unit} (h : validateProvenance report baseline = .ok u) :
    validateProvenance report none = .ok u := by
  simp only [validateProvenance,bind_ok] at h ⊢
  obtain ⟨turn,hasTurn,thread,hasThread,parent,hasParent,parentTurn,hasParentTurn,kind,
    hasKind,_,review,_,separate,_⟩ := h
  exact ⟨turn,hasTurn,thread,hasThread,parent,hasParent,parentTurn,hasParentTurn,kind,
    hasKind,_,review,_,separate,rfl⟩

theorem validateReviewReport_unbased (h : validateReviewReport report state baseline = .ok ()) :
    validateReviewReport report state none = .ok () := by
  simp only [validateReviewReport,bind_ok] at h ⊢
  obtain ⟨_,generation,_,summary,_,provenance,rest⟩ := h
  exact ⟨_,validateGeneration_unbased generation,_,summary,_,
    validateProvenance_unbased provenance,rest⟩

variable {record : FactoryRemediationRecord}

theorem mem_of_lookup
    (found : (findings.map (fun finding => (finding.id, finding.unitId))).reverse.lookup
      record.findingId = some record.unitId) :
    ∃ finding ∈ findings, Answers record finding := by
  obtain ⟨front,back,split,-⟩ := List.lookup_eq_some_iff.mp found
  have listed : (record.findingId, record.unitId) ∈
      (findings.map (fun finding => (finding.id, finding.unitId))).reverse := by
    rw [split]
    exact List.mem_append_right _ List.mem_cons_self
  obtain ⟨finding,known,same⟩ := List.mem_map.mp (List.mem_reverse.mp listed)
  obtain ⟨sameId,sameUnit⟩ := Prod.mk.inj same
  exact ⟨finding,known,sameId.symm,sameUnit.symm⟩

theorem lookup_of_answers (distinct : (findings.map (·.id)).Nodup) {finding : FactoryReviewFinding}
    (known : finding ∈ findings) (answers : Answers record finding) :
    (findings.map (fun finding => (finding.id, finding.unitId))).reverse.lookup
      record.findingId = some record.unitId := by
  rw [answers.1,answers.2]
  refine @lookup_reverse_of_nodup _ (finding.id, finding.unitId) ?_ ?_
  · rw [List.map_map]
    exact distinct
  · exact List.mem_map_of_mem known

theorem validateDispositions_covers (unapproved : report.verdict ≠ .approve)
    (distinct : (report.findings.map (·.id)).Nodup) :
    validateDispositions report records = .ok () ↔ Covers report.findings records := by
  have keyed : ∀ (record : FactoryRemediationRecord) (finding : FactoryReviewFinding),
      Answers record finding → record.findingId = finding.id := fun _ _ answers => answers.1
  simp only [validateDispositions,unapproved,if_false,bind_ok,ensure_ok,exists_const,
    validateRecords_ok]
  constructor
  · rintro ⟨size,texts,single,_⟩
    refine ⟨Pairs.of_covered keyed single size fun record listed => ?_,fun record listed => ?_,
      fun record listed => ?_,fun record listed => ?_⟩
    · exact mem_of_lookup (texts record listed).2.2.2
    · exact (texts record listed).1
    · exact (texts record listed).2.1
    · exact (texts record listed).2.2.1
  · intro covers
    refine ⟨covers.pairs.length,fun record listed => ?_,covers.pairs.distinct keyed distinct,
      by simp⟩
    obtain ⟨finding,known,answers⟩ := covers.pairs.covered listed
    exact ⟨covers.findingId record listed,covers.unitId record listed,
      covers.rationale record listed,lookup_of_answers distinct known answers⟩

theorem validateRemediation_covers (executed : validateExecute order state = .ok ())
    (found : state.review = some report)
    (reviewed : validateReviewReport report state baseline = .ok ())
    (unapproved : report.verdict ≠ .approve) :
    (validateRemediation order state = .ok () ↔ Covers report.findings state.remediations) ∧
      (validateRemediation order state = .ok () → ∀ finding ∈ report.findings,
        ∃! index : Fin state.remediations.length,
          (state.remediations.get index).findingId = finding.id) := by
  have distinct := validateReviewReport_distinct reviewed
  have accepts : validateRemediation order state = .ok () ↔
      Covers report.findings state.remediations := by
    rw [← validateDispositions_covers unapproved distinct]
    simp only [validateRemediation,bind_ok,okOr_ok]
    constructor
    · rintro ⟨_,_,current,same,_,_,checked⟩
      obtain rfl : report = current := Option.some.inj (found.symm.trans same)
      exact checked
    · exact fun checked =>
        ⟨(),executed,report,found,(),validateReviewReport_unbased reviewed,checked⟩
  refine ⟨accepts,fun accepted finding listed => ?_⟩
  exact (accepts.mp accepted).pairs.unique (fun _ _ answers => answers.1) distinct listed

namespace Sample

def rejected : FactoryReviewReport :=
  ⟨1, some "turn", some "reviewer", some "worker", some "stage", some "review", .requestChanges,
    "two findings", [⟨"f1", .major, "a", "First", "seen", "fix"⟩,
      ⟨"f2", .minor, "a", "Second", "seen", "fix"⟩]⟩

def remediated : FactoryState :=
  { FactoryState.default with
    workUnits := [⟨"a", "A", "unit", [], .completed, some "done"⟩]
    review := some rejected
    remediations := [⟨"f2", .deferred, "later", "a"⟩, ⟨"f1", .resolved, "fixed", "a"⟩] }

end Sample

theorem validateRemediation_covers_remediated :
    validateRemediation id Sample.remediated = .ok () ∧
      Covers Sample.rejected.findings Sample.remediated.remediations := by
  have accepted : validateRemediation id Sample.remediated = .ok () := by decide +kernel
  exact ⟨accepted,(@validateRemediation_covers id Sample.remediated Sample.rejected none
    (by decide +kernel) rfl (by decide +kernel) (by decide)).1.mp accepted⟩

end Runtime
