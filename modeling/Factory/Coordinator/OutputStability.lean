import Factory.Library.Weave
import Factory.Coordinator.StageReduction

namespace Coordinator

open Result Table List

def isMarker (operationId : OperationId) (event : JobEventRow) : Prop :=
  event.operationId = some operationId ∧
    (event.kind = "stage.completed" ∨ event.kind = "review_cycle.turn_completed")

inductive Harmless (operations : List OperationRow) (events : List JobEventRow)
    (event : JobEventRow) : Prop where
  | foreign (unknown : ∀ operation ∈ operations,
      event.operationId ≠ some operation.operationId) : Harmless operations events event
  | unnamed (operation : OperationRow) (known : operation ∈ operations)
      (succeeded : operation.status = .succeeded)
      (own : event.operationId = some operation.operationId)
      (unmarked : ¬ isMarker operation.operationId event)
      (other : ∀ marker ∈ events, isMarker operation.operationId marker → ∀ turnId,
        marker.payload.text "turnId" = some turnId →
          event.payload.text "turnId" ≠ some turnId) : Harmless operations events event
  | later (operation : OperationRow) (known : operation ∈ operations)
      (own : event.operationId = some operation.operationId)
      (marker : event.kind = "review_cycle.turn_completed") (completion : JobEventRow)
      (found : stageCompletion events operation = some completion) (slot terminal : MarkerSlot)
      (marked : event.slot = some slot) (ends : completion.slot = some terminal)
      (beyond : ¬ slot.upTo terminal) : Harmless operations events event

structure Unseen (events : List JobEventRow) (operationId : OperationId)
    (completion : Option JobEventRow) (event : JobEventRow) : Prop where
  settles : ¬ (event.operationId = some operationId ∧ event.kind = "stage.completed")
  cycles : event.operationId = some operationId → event.kind = "review_cycle.turn_completed" →
    ∀ settled ∈ completion, ∀ terminal ∈ settled.slot, ∀ slot ∈ event.slot, ¬ slot.upTo terminal
  speaks : event.operationId = some operationId → isMessageKind event.kind = true →
    ∀ marker ∈ events, isMarker operationId marker → ∀ turnId,
      marker.payload.text "turnId" = some turnId → event.payload.text "turnId" ≠ some turnId

section Reduction

variable {operations : List OperationRow} {events woven : List JobEventRow}
  {operation : OperationRow} {extra : JobEventRow → Prop} {completion : JobEventRow}

variable {event : JobEventRow} {operationId : OperationId} {settled : Option JobEventRow}
  {terminal : MarkerSlot} {turn : ValidatedAgentTurn} {marker : JobEventRow}

theorem Unseen.of_foreign (foreign : event.operationId ≠ some operationId) :
    Unseen events operationId settled event :=
  ⟨fun own => foreign own.1,fun own => absurd own foreign,fun own => absurd own foreign⟩

theorem Harmless.unseen (h : Harmless operations events event) (known : operation ∈ operations) :
    Unseen events operation.operationId (stageCompletion events operation) event := by
  cases h with
  | foreign unknown => exact Unseen.of_foreign (unknown operation known)
  | unnamed named _ _ named_own unmarked other =>
    have same : event.operationId = some operation.operationId →
        operation.operationId = named.operationId := fun own =>
      Option.some.inj (own.symm.trans named_own)
    refine ⟨fun own => unmarked ?_,fun own kind => absurd ?_ unmarked,fun own _ => ?_⟩
    · rw [← same own.1]
      exact ⟨own.1,.inl own.2⟩
    · rw [← same own]
      exact ⟨own,.inr kind⟩
    · rw [same own]
      exact other
  | later named _ named_own marker settled found slot terminal marked ends beyond =>
    refine ⟨fun own => ?_,fun own _ other located => ?_,fun _ message => ?_⟩
    · rw [marker] at own
      exact absurd own.2 (by decide)
    · have same : operation.operationId = named.operationId :=
        Option.some.inj (own.symm.trans named_own)
      have agree : stageCompletion events operation = stageCompletion events named := by
        rw [stageCompletion,stageCompletion,same]
      rw [agree,found] at located
      cases located
      intro last lastEnds place placed
      cases ends.symm.trans lastEnds
      cases marked.symm.trans placed
      exact beyond
    · rw [marker] at message
      exact absurd message (by decide)

section Markers

variable (h : Woven extra events woven)
  (unseen : ∀ event, extra event → Unseen events operation.operationId
    (stageCompletion events operation) event)

include h unseen

theorem stageCompletion_woven :
    stageCompletion woven operation = stageCompletion events operation := by
  unfold stageCompletion
  rw [h.filter fun event added => decide_eq_false (unseen event added).settles]

theorem cycleMarkers_woven (found : stageCompletion events operation = some completion)
    (ends : completion.slot = some terminal) :
    cycleMarkers woven operation.operationId completion terminal =
      cycleMarkers events operation.operationId completion terminal := by
  unfold cycleMarkers
  rw [filterMap_filter,filterMap_filter]
  refine h.filterMap fun event added => ?_
  split
  · next hit =>
    obtain ⟨_,own,kind⟩ := of_decide_eq_true hit
    cases located : event.slot with
    | none => rfl
    | some slot =>
      have beyond :=
        (unseen event added).cycles own kind completion found terminal ends slot located
      simp [Option.filter,beyond]
  · rfl

theorem stageMarkers_woven (found : stageCompletion events operation = some completion) :
    stageMarkers woven operation completion = stageMarkers events operation completion := by
  unfold stageMarkers
  split
  · unfold remediationMarkers
    refine bind_congr_ok fun role hasRole => bind_congr_ok fun cycle hasCycle => ?_
    have ends : completion.slot = some (cycle, role) := by
      rw [JobEventRow.slot,okOr_ok.mp hasRole,okOr_ok.mp hasCycle]
    rw [markersBySlot,markersBySlot,cycleMarkers_woven h unseen found ends]
  · rfl

end Markers

theorem stageCompletion_marks (found : stageCompletion events operation = some completion) :
    completion ∈ events ∧ isMarker operation.operationId completion := by
  obtain ⟨listed,hit⟩ := mem_filter.mp (maxByKey_mem found)
  obtain ⟨own,kind⟩ := of_decide_eq_true hit
  exact ⟨listed,own,.inl kind⟩

theorem cycleMarkers_mark {entry : MarkerSlot × JobEventRow}
    (listed : entry ∈ cycleMarkers events operationId completion terminal) :
    entry.2 ∈ events ∧ isMarker operationId entry.2 := by
  obtain ⟨marker,kept,placed⟩ := mem_filterMap.mp listed
  obtain ⟨known,hit⟩ := mem_filter.mp kept
  obtain ⟨-,own,kind⟩ := of_decide_eq_true hit
  obtain ⟨slot,-,rfl⟩ := Option.map_eq_some_iff.mp placed
  exact ⟨known,own,.inr kind⟩

theorem latestMarker_cases (marker : JobEventRow) (found : Option JobEventRow) :
    latestMarker marker found = marker ∨ some (latestMarker marker found) = found := by
  cases found with
  | none => exact .inl rfl
  | some slot =>
    by_cases newer : slot.sequence < marker.sequence
    · exact .inl (if_pos newer)
    · exact .inr (congrArg some (if_neg newer))

theorem stageMarkers_mark {markers : List JobEventRow}
    (found : stageCompletion events operation = some completion)
    (marked : stageMarkers events operation completion = .ok markers) :
    ∀ marker ∈ markers, marker ∈ events ∧ isMarker operation.operationId marker := by
  unfold stageMarkers at marked
  split at marked
  · simp only [remediationMarkers,bind_ok,pure_ok] at marked
    obtain ⟨role,-,cycle,-,rfl⟩ := marked
    intro marker listed
    obtain ⟨entry,sorted,rfl⟩ := mem_map.mp listed
    refine Assoc.forall_alter
      (P := fun marker => marker ∈ events ∧ isMarker operation.operationId marker) ?_ ?_ entry
      ((mem_insertionSort _).mp sorted)
    · refine Assoc.forall_gather
        (P := fun marker => marker ∈ events ∧ isMarker operation.operationId marker)
        (fun _ listed => absurd listed not_mem_nil) fun entry gathered found held => ?_
      rcases latestMarker_cases entry.2 found with newest | older
      · rw [newest]
        exact cycleMarkers_mark gathered
      · exact held _ older.symm
    · exact fun _ _ => stageCompletion_marks found
  · cases marked
    intro marker listed
    cases mem_singleton.mp listed
    exact stageCompletion_marks found

def Named (events : List JobEventRow) (operationId : OperationId) (turnId : String) : Prop :=
  ∃ marker ∈ events, isMarker operationId marker ∧ marker.payload.text "turnId" = some turnId

theorem Unseen.silent {turnId : String} (h : Unseen events operationId settled event)
    (named : Named events operationId turnId) (own : event.operationId = some operationId)
    (message : isMessageKind event.kind = true) : event.payload.text "turnId" ≠ some turnId := by
  obtain ⟨marker,listed,marks,carried⟩ := named
  exact h.speaks own message marker listed marks turnId carried

theorem acceptedTurn_named {upperSequence : Nat}
    (h : acceptedTurn events marker operationId upperSequence = .ok (some turn)) :
    marker.payload.text "turnId" = some turn.turnId := by
  simp only [acceptedTurn,bind_ok,okOr_ok,pure_ok] at h
  obtain ⟨turnId,carried,role,-,cycle,-,mapped⟩ := h
  obtain ⟨attemptId,-,rfl⟩ := Option.map_eq_some_iff.mp mapped
  exact carried

section Turns

variable (h : Woven extra events woven)
  (unseen : ∀ event, extra event → Unseen events operationId settled event)

include h unseen

theorem lastCompletedMessage_woven {turnId : String} (named : Named events operationId turnId)
    (upperSequence : Nat) :
    lastCompletedMessage woven operationId upperSequence turnId =
      lastCompletedMessage events operationId upperSequence turnId := by
  unfold lastCompletedMessage
  rw [h.filter fun event added => decide_eq_false ?_]
  rintro ⟨-,own,kind,carried⟩
  exact (unseen event added).silent named own (by rw [kind]; decide) carried

theorem reduceTurn_woven (named : Named events operationId turn.turnId) :
    reduceTurn woven operationId turn = reduceTurn events operationId turn := by
  have same : turnMessages woven operationId turn.attemptId turn.turnId =
      turnMessages events operationId turn.attemptId turn.turnId := by
    refine h.filter fun event added => decide_eq_false ?_
    rintro ⟨own,-,carried,message,-⟩
    exact (unseen event added).silent named own message carried
  rw [reduceTurn,reduceTurn,same]

theorem acceptedTurn_woven (listed : marker ∈ events) (marks : isMarker operationId marker)
    (upperSequence : Nat) :
    acceptedTurn woven marker operationId upperSequence =
      acceptedTurn events marker operationId upperSequence := by
  unfold acceptedTurn
  refine bind_congr_ok fun turnId carried => ?_
  rw [lastCompletedMessage_woven h unseen ⟨marker,listed,marks,okOr_ok.mp carried⟩]

theorem reduceOutputs_woven {stage : String} {turns : List ValidatedAgentTurn}
    (named : ∀ turn ∈ turns, Named events operationId turn.turnId) :
    reduceCompletedStageOutputs [⟨operationId, stage, turns⟩] woven =
      reduceCompletedStageOutputs [⟨operationId, stage, turns⟩] events := by
  refine mapM_congr fun validated listed => ?_
  cases mem_singleton.mp listed
  unfold reduceCompletedStageOutput
  refine bind_congr_ok fun _ _ => ?_
  rw [mapM_congr fun turn mem => ?_]
  unfold reduceStageTurn
  rw [reduceTurn_woven h unseen (named turn mem)]

end Turns

theorem reduceOperation_woven (h : Woven extra events woven)
    (unseen : ∀ event, extra event →
      Unseen events operation.operationId (stageCompletion events operation) event) :
    reduceOperation woven operation = reduceOperation events operation := by
  unfold reduceOperation
  rw [stageCompletion_woven h unseen]
  refine bind_congr_ok fun completion found => bind_congr_ok fun findings _ => ?_
  have found := okOr_ok.mp found
  rw [stageMarkers_woven h unseen found]
  refine bind_congr_ok fun markers marked => ?_
  have marks := stageMarkers_mark found marked
  rw [mapM_congr fun marker listed =>
    acceptedTurn_woven h unseen (marks marker listed).1 (marks marker listed).2 completion.sequence]
  refine bind_congr_ok fun accepted validated => ?_
  have named : ∀ turn ∈ sortTurns (accepted.filterMap id),
      Named events operation.operationId turn.turnId := by
    intro turn sorted
    obtain ⟨found,listed,rfl⟩ := mem_filterMap.mp ((mem_insertionSort _).mp sorted)
    obtain ⟨marker,mem,source⟩ := (mapM_ok validated).2.2 _ listed
    exact ⟨marker,(marks marker mem).1,(marks marker mem).2,acceptedTurn_named source⟩
  simp only [reduceOutputs_woven h unseen named]

end Reduction

def Appended (operations added : List OperationRow) : Prop :=
  ∀ new ∈ added, ∀ old ∈ operations,
    new.operationId ≠ old.operationId ∧ old.ordinal < new.ordinal

def EventOf (added : List OperationRow) (event : JobEventRow) : Prop :=
  ∃ new ∈ added, event.operationId = some new.operationId

section Stability

variable {operations added : List OperationRow} {events woven : List JobEventRow}

variable {operation : OperationRow}

theorem mem_settledOperations :
    operation ∈ settledOperations operations ↔
      operation ∈ operations ∧ operation.status = .succeeded := by
  rw [settledOperations,mem_insertionSort,mem_filter,decide_eq_true_iff]

theorem settledOperations_append (h : Appended operations added) :
    settledOperations (operations ++ added) =
      settledOperations operations ++ settledOperations added := by
  unfold settledOperations
  rw [filter_append]
  refine insertionSort_append_of_forall _ fun old oldKept new newKept => ?_
  exact Nat.le_of_lt
    (h new (mem_of_mem_filter newKept) old (mem_of_mem_filter oldKept)).2

theorem EventOf.unseen {event : JobEventRow} (appended : Appended operations added)
    (known : operation ∈ operations) (h : EventOf added event) :
    Unseen events operation.operationId (stageCompletion events operation) event := by
  refine Unseen.of_foreign fun own => ?_
  obtain ⟨new,mem,carried⟩ := h
  exact (appended new mem operation known).1 (Option.some.inj (carried.symm.trans own))

theorem reduce_harmless (h : Woven (Harmless operations events) events woven) :
    reduceSettledJobOutputs operations woven = reduceSettledJobOutputs operations events := by
  unfold reduceSettledJobOutputs
  rw [mapM_congr fun operation listed => reduceOperation_woven h fun event added =>
    added.unseen (mem_settledOperations.mp listed).1]

theorem reduce_appended {outputs later : List CompletedStageOutput}
    (appended : Appended operations added) (h : Woven (EventOf added) events woven)
    (before : reduceSettledJobOutputs operations events = .ok outputs)
    (after : reduceSettledJobOutputs (operations ++ added) woven = .ok later) :
    outputs <+: later := by
  simp only [reduceSettledJobOutputs,bind_ok,pure_ok] at before after
  obtain ⟨reduced,first,rfl⟩ := before
  obtain ⟨extended,second,rfl⟩ := after
  rw [settledOperations_append appended,mapM_append,bind_ok] at second
  obtain ⟨kept,same,second⟩ := second
  rw [mapM_congr fun operation listed => reduceOperation_woven h fun event new =>
    new.unseen appended (mem_settledOperations.mp listed).1,first] at same
  cases same
  simp only [bind_ok,pure_ok] at second
  obtain ⟨rest,-,rfl⟩ := second
  rw [flatten_append]
  exact prefix_append _ _

theorem settled_outputs_stable {outputs : List CompletedStageOutput}
    (settled : reduceSettledJobOutputs operations events = .ok outputs) :
    (∀ woven, Woven (Harmless operations events) events woven →
      reduceSettledJobOutputs operations woven = .ok outputs) ∧
    ∀ added woven later, Appended operations added → Woven (EventOf added) events woven →
      reduceSettledJobOutputs (operations ++ added) woven = .ok later → outputs <+: later :=
  ⟨fun _ h => (reduce_harmless h).trans settled,
    fun _ _ _ appended h after => reduce_appended appended h settled after⟩

end Stability

section Remediated

def remediated : OperationRow :=
  ⟨"remediate", "job", 4, "codex.remediate", .null, .succeeded, 3, 0⟩

def remediatedEvents : List JobEventRow :=
  [⟨1, "job", some "remediate", some "attempt", "agent.message.completed",
      .object [("turnId", .string "first"), ("itemId", .string "item"), ("text", .string "done")],
      none⟩,
    ⟨2, "job", some "remediate", some "attempt", "stage.completed",
      .object [("turnId", .string "first"), ("role", .string "review"),
        ("reviewCycle", .number (.int 1))], none⟩]

def laterMarker : JobEventRow :=
  ⟨1, "job", some "remediate", some "other", "review_cycle.turn_completed",
    .object [("turnId", .string "second"), ("role", .string "remediation"),
      ("reviewCycle", .number (.int 2))], none⟩

theorem laterMarker_harmless : Harmless [remediated] remediatedEvents laterMarker :=
  .later remediated mem_cons_self rfl rfl (remediatedEvents.get ⟨1,by decide⟩)
    (by decide +kernel) (2, .remediation) (1, .review) (by decide +kernel) (by decide +kernel)
    (by decide)

theorem settled_outputs_stable_remediated :
    ∃ outputs, reduceSettledJobOutputs [remediated] remediatedEvents = .ok outputs ∧
      outputs.length = 1 ∧
      reduceSettledJobOutputs [remediated] (laterMarker :: remediatedEvents) = .ok outputs ∧
      ∀ added woven later, Appended [remediated] added →
        Woven (EventOf added) remediatedEvents woven →
        reduceSettledJobOutputs ([remediated] ++ added) woven = .ok later → outputs <+: later := by
  have reduced : reduceSettledJobOutputs [remediated] remediatedEvents = .ok
      [⟨"remediate","remediate",
        "### Cycle 1: Review\n\nAttempt: `attempt`  \nTurn: `first`\n\ndone\n",none⟩] := by
    decide +kernel
  have stable := settled_outputs_stable reduced
  exact ⟨_,reduced,rfl,stable.1 _ (.insert laterMarker_harmless (Woven.refl _)),stable.2⟩

end Remediated

end Coordinator
