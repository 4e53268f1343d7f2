import Factory.Library.Acyclicity
import Factory.Extension.State
import Factory.Library.Machine

namespace Extension

open Result FactoryThreadState

def Bounded (value : String) (maxChars : Nat) : Prop :=
  Text.isBlank value = false ∧ value.toList.length ≤ maxChars

theorem requireBoundedText_ok {field value : String} {maxChars : Nat} {u : Unit} :
    requireBoundedText field value maxChars = .ok u ↔ Bounded value maxChars := by
  simp [requireBoundedText,bind_ok,ensure_ok,Bounded]

structure UnitTexts (unit : WorkUnitArgs) : Prop where
  id : Bounded unit.id maxIdentifierChars
  title : Bounded unit.title maxTitleChars
  description : Bounded unit.description maxDetailChars

theorem validateUnits_ok (units : List WorkUnitArgs) (ids : List String) :
    validateUnits units ids = .ok () ↔
      (∀ unit ∈ units, UnitTexts unit ∧ unit.dependsOn.length ≤ maxDependencies) ∧
        (units.map (·.id)).Nodup ∧ ∀ unit ∈ units, unit.id ∉ ids := by
  refine scan_ok (fun _ => rfl) (fun unit rest seen => ?_) units ids
  simp only [validateUnits,bind_ok,requireBoundedText_ok,ensure_ok,exists_const]
  constructor
  · rintro ⟨id,title,description,few,fresh,later⟩
    exact ⟨⟨⟨id,title,description⟩,few⟩,fresh,later⟩
  · rintro ⟨⟨⟨id,title,description⟩,few⟩,fresh,later⟩
    exact ⟨id,title,description,few,fresh,later⟩

theorem validateDependencies_ok (unitId : String) (ids dependencies seen : List String) :
    validateDependencies unitId ids dependencies seen = .ok () ↔
      (∀ dependency ∈ dependencies, Bounded dependency maxIdentifierChars ∧
          dependency ≠ unitId ∧ dependency ∈ ids) ∧
        (dependencies.map id).Nodup ∧ ∀ dependency ∈ dependencies, dependency ∉ seen := by
  refine scan_ok (fun _ => rfl) (fun dependency rest seen => ?_) dependencies seen
  simp only [validateDependencies,bind_ok,requireBoundedText_ok,ensure_ok,exists_const,id,
    and_assoc]

structure FindingTexts (unitIds : List String) (finding : FactoryReviewFinding) : Prop where
  id : Bounded finding.id maxIdentifierChars
  unitId : Bounded finding.unitId maxIdentifierChars
  title : Bounded finding.title maxTitleChars
  evidence : Bounded finding.evidence maxDetailChars
  recommendation : Bounded finding.recommendation maxDetailChars
  known : finding.unitId ∈ unitIds

theorem validateFindings_ok (unitIds : List String) (findings : List FactoryReviewFinding)
    (ids : List String) :
    validateFindings unitIds findings ids = .ok () ↔
      (∀ finding ∈ findings, FindingTexts unitIds finding) ∧
        (findings.map (·.id)).Nodup ∧ ∀ finding ∈ findings, finding.id ∉ ids := by
  refine scan_ok (fun _ => rfl) (fun finding rest seen => ?_) findings ids
  simp only [validateFindings,bind_ok,requireBoundedText_ok,ensure_ok,exists_const]
  constructor
  · rintro ⟨id,unitId,title,evidence,recommendation,fresh,known,later⟩
    exact ⟨⟨id,unitId,title,evidence,recommendation,known⟩,fresh,later⟩
  · rintro ⟨⟨id,unitId,title,evidence,recommendation,known⟩,fresh,later⟩
    exact ⟨id,unitId,title,evidence,recommendation,fresh,known,later⟩

structure DispositionTexts (findings : List (String × String))
    (record : FactoryRemediationRecord) : Prop where
  findingId : Bounded record.findingId maxIdentifierChars
  unitId : Bounded record.unitId maxIdentifierChars
  rationale : Bounded record.rationale maxDetailChars
  known : findings.reverse.lookup record.findingId = some record.unitId

theorem validateDispositions_ok (findings : List (String × String))
    (records : List FactoryRemediationRecord) (ids : List String) :
    validateDispositions findings records ids = .ok () ↔
      (∀ record ∈ records, DispositionTexts findings record) ∧
        (records.map (·.findingId)).Nodup ∧ ∀ record ∈ records, record.findingId ∉ ids := by
  refine scan_ok (fun _ => rfl) (fun record rest seen => ?_) records ids
  simp only [validateDispositions,bind_ok,requireBoundedText_ok,ensure_ok,okOr_ok,
    exists_const]
  constructor
  · rintro ⟨findingId,unitId,rationale,fresh,unit,found,rfl,later⟩
    exact ⟨⟨findingId,unitId,rationale,found⟩,fresh,later⟩
  · rintro ⟨⟨findingId,unitId,rationale,found⟩,fresh,later⟩
    exact ⟨findingId,unitId,rationale,fresh,record.unitId,found,rfl,later⟩

def dependencyGraph (units : List WorkUnitArgs) : Dependencies.Graph String :=
  units.map (fun unit => (unit.id, unit.dependsOn))

structure Decomposed (units : List WorkUnitArgs) : Prop where
  nonempty : units ≠ []
  texts : ∀ unit ∈ units, UnitTexts unit
  dependencies : ∀ unit ∈ units, ∀ dependency ∈ unit.dependsOn,
    Bounded dependency maxIdentifierChars ∧ dependency ≠ unit.id
  graph : Dependencies.WellFormed (dependencyGraph units)
  acyclic : Dependencies.Acyclic (dependencyGraph units)

theorem keys_dependencyGraph (units : List WorkUnitArgs) :
    Dependencies.keys (dependencyGraph units) = units.map (·.id) := by
  rw [Dependencies.keys,dependencyGraph,List.map_map]
  rfl

theorem validateDecomposition_ok {order : List String → List String}
    (permutes : ∀ ids, (order ids).Perm ids) {units : List WorkUnitArgs}
    (h : validateDecomposition order units = .ok ()) : Decomposed units := by
  simp only [validateDecomposition,bind_ok,ensure_ok,exists_const] at h
  obtain ⟨nonempty,_,⟨⟩,texts,⟨⟩,dependencies,acyclic⟩ := h
  obtain ⟨texts,distinct,_⟩ := (validateUnits_ok units []).mp texts
  have checked := fun (unit : WorkUnitArgs) known =>
    (validateDependencies_ok unit.id (units.map (·.id)) unit.dependsOn []).mp
      (forM_ok dependencies unit known)
  have graph : Dependencies.WellFormed (dependencyGraph units) := by
    refine ⟨?_,fun node listed => ?_,fun node listed => ?_⟩
    · rw [keys_dependencyGraph]
      exact distinct
    · obtain ⟨unit,known,rfl⟩ := List.mem_map.mp listed
      rw [keys_dependencyGraph]
      exact fun dependency needed => ((checked unit known).1 dependency needed).2.2
    · obtain ⟨unit,known,rfl⟩ := List.mem_map.mp listed
      have unrepeated := (checked unit known).2.1
      rwa [List.map_id] at unrepeated
  refine ⟨nonempty,fun unit known => (texts unit known).1,fun unit known dependency needed => ?_,
    graph,?_⟩
  · have listed := (checked unit known).1 dependency needed
    exact ⟨listed.1,listed.2.1⟩
  · rw [validateAcyclic,ensure_ok] at acyclic
    exact (Dependencies.isAcyclic_iff graph permutes).mp acyclic

structure Detached (turnId threadId : String) (context : DetachedReviewThreadContext) : Prop where
  turn : Text.isBlank turnId = false
  thread : Text.isBlank threadId = false
  parentThread : Text.isBlank context.parentThreadId = false
  parentTurn : Text.isBlank context.parentTurnId = false
  separate : threadId ≠ context.parentThreadId

namespace FactoryToolCall

def apply (call : FactoryToolCall) (state : FactoryState) : Except String FactoryState := do
  call.validate
  let next ← call.mutate state
  pure { next with revision := saturatingSucc next.revision }

def Admissible : FactoryToolCall → Prop
  | .decompose order _ => ∀ ids, (order ids).Perm ids
  | .review provenance _ => ∃ turnId threadId context,
      provenance = detachedProvenance turnId threadId context ∧ Detached turnId threadId context
  | .progress _ | .remediation _ => True

variable {call : FactoryToolCall} {state next : FactoryState}

theorem apply_ok (h : call.apply state = .ok next) :
    ∃ changed, call.validate = .ok () ∧ call.mutate state = .ok changed ∧
      next = { changed with revision := saturatingSucc changed.revision } := by
  simp only [apply,bind_ok,pure_ok] at h
  obtain ⟨⟨⟩,valid,changed,accepted,rfl⟩ := h
  exact ⟨changed,valid,accepted,rfl⟩

theorem apply_eq {changed : FactoryState} (valid : call.validate = .ok ())
    (accepted : call.mutate state = .ok changed) :
    call.apply state = .ok { changed with revision := saturatingSucc changed.revision } := by
  simp only [apply,valid,accepted]
  rfl

theorem mutate_keeps (h : call.mutate state = .ok next) :
    next.revision = state.revision ∧ next.reviewRecovery = state.reviewRecovery := by
  cases call with
  | decompose order units =>
    simp only [mutate,Extension.decompose,bind_ok,pure_ok] at h
    obtain ⟨_,_,rfl⟩ := h
    exact ⟨rfl,rfl⟩
  | progress args =>
    simp only [mutate,Extension.progress,bind_ok,pure_ok] at h
    obtain ⟨_,_,_,_,_,_,_,_,rfl⟩ := h
    exact ⟨rfl,rfl⟩
  | review provenance args =>
    simp only [mutate,Extension.review,bind_ok,pure_ok] at h
    obtain ⟨_,_,rfl⟩ := h
    unfold FactoryState.recordReview FactoryState.closeReviewCycle
    split
    · exact ⟨rfl,rfl⟩
    · split <;> exact ⟨rfl,rfl⟩
  | remediation dispositions =>
    simp only [mutate,Extension.remediation,bind_ok,pure_ok] at h
    obtain ⟨_,_,rfl⟩ := h
    exact ⟨rfl,rfl⟩

theorem mutate_recovery (h : call.mutate state = .ok next) :
    next.reviewRecovery = state.reviewRecovery := (mutate_keeps h).2

theorem apply_revision (h : call.apply state = .ok next) (below : state.revision < u64Max) :
    next.revision = state.revision + 1 := by
  obtain ⟨changed,_,accepted,rfl⟩ := apply_ok h
  simp only [(mutate_keeps accepted).1,saturatingSucc]
  omega

end FactoryToolCall

def FactoryThreadState.receive (thread : FactoryThreadState) (call : FactoryToolCall) :
    FactoryThreadState :=
  thread.call call

def callAll (calls : List FactoryToolCall) : FactoryThreadState :=
  Machine.run receive ⟨none, none⟩ calls

def stateAfter (calls : List FactoryToolCall) : FactoryState := (callAll calls).load

namespace FactoryThreadState

variable {thread : FactoryThreadState} {call : FactoryToolCall}

theorem call_load (fresh : thread.current = thread.load) :
    (thread.call call).load = (call.apply thread.load).toOption.getD thread.load ∧
      (thread.call call).current = (thread.call call).load := by
  unfold FactoryThreadState.call FactoryToolCall.apply
  cases valid : call.validate with
  | error e => exact ⟨rfl,fresh⟩
  | ok u =>
    dsimp only [update]
    rw [fresh]
    cases accepted : call.mutate thread.load with
    | error e => exact ⟨rfl,fresh⟩
    | ok next => exact ⟨rfl,rfl⟩

end FactoryThreadState

theorem callAll_current (calls : List FactoryToolCall) :
    (callAll calls).current = (callAll calls).load := by
  refine @Machine.run_invariant _ _ receive ⟨none,none⟩
    (fun thread => thread.current = thread.load) (fun thread call fresh => ?_) rfl calls
  exact (call_load fresh).2

theorem stateAfter_append (calls : List FactoryToolCall) (call : FactoryToolCall) :
    stateAfter (calls ++ [call]) =
      (call.apply (stateAfter calls)).toOption.getD (stateAfter calls) := by
  unfold stateAfter callAll
  rw [Machine.run_append]
  exact (call_load (callAll_current calls)).1

variable {call : FactoryToolCall} {calls : List FactoryToolCall}

theorem stateAfter_ok {next : FactoryState} (h : call.apply (stateAfter calls) = .ok next) :
    stateAfter (calls ++ [call]) = next := by
  rw [stateAfter_append,h]
  rfl

theorem stateAfter_error {e : String} (h : call.apply (stateAfter calls) = .error e) :
    stateAfter (calls ++ [call]) = stateAfter calls := by
  rw [stateAfter_append,h]
  rfl

end Extension
