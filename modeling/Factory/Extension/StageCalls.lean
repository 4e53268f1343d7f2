import Factory.Extension.PlannedState
import Factory.Library.Assoc

namespace Extension

open Result List

def FactoryToolCall.applyAll (calls : List FactoryToolCall) (state : FactoryState) :
    Except String FactoryState :=
  calls.foldlM (fun state call => call.apply state) state

def FactoryState.unfinished (state : FactoryState) : Nat :=
  state.workUnits.countP (fun unit => unit.status ≠ .completed)

theorem applyActivity_kept (activity : FactorySubagentActivity) (archive : Option Nat)
    (state : FactoryState) : ∃ subagents history, applyActivity activity archive state =
      { state with subagents := subagents, subagentHistory := history } := by
  unfold applyActivity
  split
  · exact ⟨_,_,rfl⟩
  · exact ⟨_,_,rfl⟩

theorem lookup_reverse_of_nodup {entries : List (String × String)} {entry : String × String}
    (distinct : (entries.map Prod.fst).Nodup) (member : entry ∈ entries) :
    entries.reverse.lookup entry.1 = some entry.2 := by
  have reversed : (entries.reverse.map Prod.fst).Nodup := by
    rw [map_reverse]
    exact nodup_reverse.mpr distinct
  exact Assoc.lookup_of_nodup reversed (mem_reverse.mpr member)

namespace Planned

variable {units : List WorkUnitArgs} {state next : FactoryState}

theorem activity (h : Planned units state) (activity : FactorySubagentActivity)
    (archive : Option Nat) :
    Planned units { applyActivity activity archive state with
      revision := saturatingSucc (applyActivity activity archive state).revision } := by
  obtain ⟨subagents,history,same⟩ := applyActivity_kept activity archive state
  rw [same]
  exact ⟨h.decomposed,h.fixed,h.summarised,h.closed,h.reported,
    h.generation.trans (le_saturatingSucc (Nat.le_refl _) h.revision),Nat.min_le_right _ _⟩

variable {args : ProgressArgs}

theorem progress_unfinished (h : Planned units state)
    (accepted : (FactoryToolCall.progress args).apply state = .ok next) :
    next.unfinished < state.unfinished := by
  obtain ⟨changed,_,mutated,rfl⟩ := FactoryToolCall.apply_ok accepted
  obtain ⟨unit,known,id,unfinished,-,rfl⟩ := progress_ok mutated
  have fewer : ∀ rows : List FactoryWorkUnit,
      rows.countP (fun other : FactoryWorkUnit => decide
        ((if other.id = args.unitId then completed args.summary other else other).status ≠
          .completed)) ≤ rows.countP (fun other => decide (other.status ≠ .completed)) := by
    intro rows
    refine countP_mono_left fun other _ waiting => ?_
    rw [decide_eq_true_eq] at waiting ⊢
    exact fun done => waiting (status_kept done)
  obtain ⟨before,after,split⟩ := append_of_mem known
  simp only [FactoryState.unfinished,h.progress_map,countP_map,Function.comp_def]
  rw [split]
  simp only [countP_append,countP_cons,id,if_true,completed,unfinished,ne_eq,
    not_true_eq_false,not_false_eq_true,decide_true,decide_false,Bool.false_eq_true,if_false]
  have front := fewer before
  have back := fewer after
  simp only [completed,ne_eq] at front back
  omega

theorem progress_next (accepted : (FactoryToolCall.progress args).apply state = .ok next) :
    next.revision = saturatingSucc state.revision ∧ next.review = state.review := by
  obtain ⟨changed,_,mutated,rfl⟩ := FactoryToolCall.apply_ok accepted
  obtain ⟨unit,-,-,-,-,rfl⟩ := progress_ok mutated
  exact ⟨rfl,rfl⟩

structure Finishes (units : List WorkUnitArgs) (state : FactoryState)
    (calls : List FactoryToolCall) (final : FactoryState) : Prop where
  staged : ∀ call ∈ calls, call.stage = .execute
  accepted : FactoryToolCall.applyAll calls state = .ok final
  planned : Planned units final
  finished : ∀ unit ∈ final.workUnits, unit.status = .completed
  revision : state.revision ≤ final.revision
  advanced : (∃ unit ∈ state.workUnits, unit.status ≠ .completed) →
    saturatingSucc state.revision ≤ final.revision

theorem finishes (h : Planned units state) : ∃ calls final, Finishes units state calls final := by
  induction left : state.unfinished using Nat.strong_induction_on generalizing state with
  | _ left ih =>
    by_cases waiting : ∃ unit ∈ state.workUnits, unit.status ≠ .completed
    · obtain ⟨unit,known,unfinished⟩ := waiting
      obtain ⟨ready,-,-,accepts⟩ := h.progresses known unfinished
      obtain ⟨next,accepted⟩ := accepts "done" ⟨by decide,by decide⟩
      have admissible : (FactoryToolCall.progress ⟨ready.id,.completed,"done"⟩).Admissible :=
        trivial
      have planned := h.step admissible accepted
      have fewer := h.progress_unfinished accepted
      obtain ⟨calls,final,rest⟩ := ih next.unfinished (left ▸ fewer) planned rfl
      have bumped := (progress_next accepted).1
      have larger : saturatingSucc state.revision ≤ final.revision := by
        rw [← bumped]
        exact rest.revision
      refine ⟨.progress ⟨ready.id,.completed,"done"⟩ :: calls,final,?_,?_,rest.planned,
        rest.finished,(le_saturatingSucc (Nat.le_refl _) h.revision).trans larger,
        fun _ => larger⟩
      · exact forall_mem_cons.mpr ⟨rfl,rest.staged⟩
      · rw [FactoryToolCall.applyAll,foldlM_cons,accepted]
        exact rest.accepted
    · have finished : ∀ unit ∈ state.workUnits, unit.status = .completed := by
        intro unit known
        by_contra unfinished
        exact waiting ⟨unit,known,unfinished⟩
      exact ⟨[],state,fun _ member => absurd member not_mem_nil,rfl,h,finished,
        Nat.le_refl _,fun some => absurd some waiting⟩

def approval : ReviewArgs := ⟨.approve, "approved", []⟩

theorem approves (provenance : ReviewProvenance) (state : FactoryState) :
    (FactoryToolCall.review provenance approval).apply state =
      .ok { state.recordReview (reviewReport provenance approval 0) with
        revision := saturatingSucc
          (state.recordReview (reviewReport provenance approval 0)).revision } := rfl

def resolutions (report : FactoryReviewReport) : List FactoryRemediationRecord :=
  report.findings.map fun finding => ⟨finding.id, .resolved, "resolved", finding.unitId⟩

theorem remediates {report : FactoryReviewReport} (h : Planned units state)
    (found : state.review = some report) (rejected : report.verdict ≠ .approve)
    (few : report.findings.length ≤ maxFindings) :
    (FactoryToolCall.remediation (resolutions report)).apply state =
      .ok { state with
        remediations := resolutions report
        revision := saturatingSucc state.revision } := by
  have reported := h.reported report found
  have nonempty : resolutions report ≠ [] := by
    intro empty
    exact rejected (reported.verdict.mpr (map_eq_nil_iff.mp empty))
  have records : validateDispositions
      (report.findings.map (fun finding => (finding.id, finding.unitId)))
      (resolutions report) [] = .ok () := by
    refine (validateDispositions_ok _ _ []).mpr ⟨fun record member => ?_,?_,fun _ _ => nofun⟩
    · obtain ⟨finding,listed,rfl⟩ := mem_map.mp member
      have texts := reported.texts finding listed
      have rationale : Bounded "resolved" maxDetailChars := ⟨by decide,by decide⟩
      refine ⟨texts.id,texts.unitId,rationale,?_⟩
      refine @lookup_reverse_of_nodup _ (finding.id, finding.unitId) ?_
        (mem_map_of_mem (f := fun finding => (finding.id, finding.unitId)) listed)
      rw [map_map]
      exact reported.distinct
    · rw [resolutions,map_map]
      exact reported.distinct
  refine @FactoryToolCall.apply_eq (.remediation (resolutions report)) state
    { state with remediations := resolutions report } rfl ?_
  simp only [FactoryToolCall.mutate,remediation,validateRemediations,bind_ok,ensure_ok,
    okOr_ok,pure_ok,exists_const]
  refine ⟨(),⟨nonempty,?_,report,found,records⟩,trivial⟩
  rw [resolutions,length_map]
  exact few

end Planned

end Extension
