import Factory.Coordinator.StageOutput

namespace Coordinator

open Result Table List

variable {events : List JobEventRow} {operationId : OperationId}

variable {allowCommentary : Bool} {stage : ValidatedStageOutput}
  {outputs : List CompletedStageOutput}

theorem candidate_isSome {message : AgentMessage} :
    (message.candidate allowCommentary).isSome = true ↔
      message.completedSequence.isSome = true ∧
      (allowCommentary = true ∨ message.phase ≠ some "commentary") ∧
      Text.isBlank message.markdown = false := by
  unfold AgentMessage.candidate
  cases message.completedSequence with
  | none => simp
  | some sequence =>
    simp only [Option.isSome_some,true_and]
    split
    · next hit => simpa using hit
    · next miss => simpa using miss

theorem choose_isSome {messages : List (String × AgentMessage)} :
    (choose allowCommentary messages).isSome = true ↔
      ∃ entry ∈ messages, (entry.2.candidate allowCommentary).isSome = true := by
  rw [choose,Option.isSome_map,maxByKey_isSome]
  constructor
  · intro nonempty
    obtain ⟨candidate,mem⟩ := exists_mem_of_ne_nil _ nonempty
    obtain ⟨entry,known,found⟩ := mem_filterMap.mp mem
    exact ⟨entry,known,by rw [found]; rfl⟩
  · rintro ⟨entry,known,found⟩
    obtain ⟨candidate,hit⟩ := Option.isSome_iff_exists.mp found
    exact ne_nil_of_mem (mem_filterMap.mpr ⟨entry,known,hit⟩)

theorem reduceTurn_isSome {validated : ValidatedAgentTurn} :
    (reduceTurn events operationId validated).isSome = true ↔
      ∃ entry ∈ collectMessages
          (turnMessages events operationId validated.attemptId validated.turnId),
        entry.2.completedSequence.isSome = true ∧ Text.isBlank entry.2.markdown = false := by
  simp only [reduceTurn,Option.isSome_or,Bool.or_eq_true,choose_isSome,candidate_isSome]
  constructor
  · rintro (⟨entry,mem,closed,-,text⟩ | ⟨entry,mem,closed,-,text⟩)
    · exact ⟨entry,mem,closed,text⟩
    · exact ⟨entry,mem,closed,text⟩
  · rintro ⟨entry,mem,closed,text⟩
    exact .inr ⟨entry,mem,closed,.inl trivial,text⟩

theorem collected_nodup (events : List JobEventRow) :
    ((collectMessages events).map Prod.fst).Nodup :=
  Assoc.nodup_gather nodup_nil

def opensWith (c : Char) (s : String) : Prop := s.toList.head? = some c

theorem opensWith_append {c : Char} {s : String} (h : opensWith c s) (t : String) :
    opensWith c (s ++ t) := by
  unfold opensWith at *
  rw [String.toList_append,head?_append,h]
  rfl

theorem transcriptEntry_opens (turn : ValidatedAgentTurn) (output : String) :
    opensWith '#' (transcriptEntry turn output) := by
  have heading : opensWith '#' "### Cycle " := by
    unfold opensWith
    decide
  unfold transcriptEntry
  iterate 9 refine opensWith_append ?_ _
  exact heading

theorem endLine_opens {c : Char} {text : String} (h : opensWith c text) :
    opensWith c (if Text.endsWith '\n' text then text else text ++ "\n") := by
  split
  · exact h
  · exact opensWith_append h _

theorem appendEntry_opens {markdown : String} {entry : (ValidatedAgentTurn × String) × Nat}
    (h : opensWith '#' markdown ∨ markdown = "" ∧ entry.2 = 0) :
    opensWith '#' (appendEntry markdown entry) := by
  refine endLine_opens ?_
  rcases h with opened | ⟨rfl,first⟩
  · refine opensWith_append ?_ _
    split
    · exact opensWith_append opened _
    · exact opened
  · rw [first,if_neg (Nat.lt_irrefl 0),String.empty_append]
    exact transcriptEntry_opens _ _

theorem transcript_opens {turns : List (ValidatedAgentTurn × String)} (nonempty : turns ≠ []) :
    opensWith '#' (renderRemediationTranscript turns) := by
  have extended : ∀ (rest : List ((ValidatedAgentTurn × String) × Nat)) (markdown : String),
      opensWith '#' markdown → opensWith '#' (rest.foldl appendEntry markdown) := by
    intro rest
    induction rest with
    | nil => exact fun _ opened => opened
    | cons entry rest ih => exact fun _ opened => ih _ (appendEntry_opens (.inl opened))
  cases turns with
  | nil => exact absurd rfl nonempty
  | cons turn rest =>
    rw [renderRemediationTranscript,zipIdx_cons,foldl_cons]
    exact extended _ _ (appendEntry_opens (.inr ⟨rfl,rfl⟩))

theorem transcript_ne_approved {turns : List (ValidatedAgentTurn × String)}
    (nonempty : turns ≠ []) : renderRemediationTranscript turns ≠ approvedNoRemediation := by
  intro same
  have opened := transcript_opens nonempty
  rw [same] at opened
  revert opened
  unfold opensWith
  decide

theorem renderTurns_ok {stage : String} {turns : List (ValidatedAgentTurn × String)} :
    (∃ markdown, renderTurns stage turns = .ok markdown) ↔
      stage = "remediate" ∨ turns.length = 1 := by
  unfold renderTurns
  split
  · next remediate => exact ⟨fun _ => .inl remediate,fun _ => ⟨_,rfl⟩⟩
  · next other =>
    rw [or_iff_right other,length_eq_one_iff]
    split
    · exact ⟨fun _ => ⟨_,rfl⟩,fun _ => ⟨_,rfl⟩⟩
    · next many =>
      constructor
      · rintro ⟨markdown,failed⟩
        contradiction
      · rintro ⟨⟨turn,markdown⟩,rfl⟩
        exact absurd rfl (many turn markdown)

theorem reduceStageTurn_ok {turn : ValidatedAgentTurn} :
    (∃ reduced, reduceStageTurn events stage turn = .ok reduced) ↔
      (reduceTurn events stage.operationId turn).isSome = true := by
  simp only [reduceStageTurn,bind_ok,okOr_ok,pure_ok,Option.isSome_iff_exists]
  constructor
  · rintro ⟨reduced,markdown,found,-⟩
    exact ⟨markdown,found⟩
  · rintro ⟨markdown,found⟩
    exact ⟨_,markdown,found,rfl⟩

theorem reduceCompleted_ok {output : CompletedStageOutput}
    (h : reduceCompletedStageOutput events stage = .ok output) :
    output.operationId = stage.operationId ∧
      (stage.stage = "remediate" → output.markdown ≠ approvedNoRemediation) ∧
      ∀ turn ∈ stage.turns, (reduceTurn events stage.operationId turn).isSome = true := by
  simp only [reduceCompletedStageOutput,bind_ok,pure_ok,ensure_ok] at h
  obtain ⟨-,nonempty,turns,reduced,markdown,rendered,rfl⟩ := h
  obtain ⟨length,each,-⟩ := mapM_ok reduced
  refine ⟨rfl,fun remediate => ?_,?_⟩
  · unfold renderTurns at rendered
    rw [if_pos remediate] at rendered
    obtain rfl := Except.ok.inj rendered
    refine transcript_ne_approved ?_
    rintro rfl
    exact nonempty (length_eq_zero_iff.mp length.symm)
  · intro turn mem
    obtain ⟨pair,-,found⟩ := each turn mem
    exact reduceStageTurn_ok.mp ⟨pair,found⟩

theorem reduceCompleted_exists {stage : ValidatedStageOutput} (nonempty : stage.turns ≠ [])
    (each : ∀ turn ∈ stage.turns, (reduceTurn events stage.operationId turn).isSome = true)
    (shape : stage.stage = "remediate" ∨ stage.turns.length = 1) :
    ∃ output, reduceCompletedStageOutput events stage = .ok output := by
  obtain ⟨turns,reduced⟩ := mapM_exists fun turn mem => reduceStageTurn_ok.mpr (each turn mem)
  have length := (mapM_ok reduced).1
  rw [← length] at shape
  obtain ⟨markdown,rendered⟩ := renderTurns_ok.mpr shape
  refine ⟨⟨stage.operationId,stage.stage,markdown,none⟩,?_⟩
  simp only [reduceCompletedStageOutput,bind_ok,pure_ok,ensure_ok]
  exact ⟨(),nonempty,turns,reduced,markdown,rendered,rfl⟩

def concludeOperation (events : List JobEventRow) (operation : OperationRow)
    (completion : JobEventRow) (findings : Option Json.Value) (markers : List JobEventRow)
    (turns : List ValidatedAgentTurn) : Reduction (List CompletedStageOutput) :=
  if stageName operation = "remediate" ∧ turns = [] ∧ completion.turnRole = some .review then
    pure [⟨operation.operationId, stageName operation, approvedNoRemediation, findings⟩]
  else do
    ensure (turns.length = markers.length)
      ⟨"settled " ++ stageName operation ++
        " stage has an accepted turn without completed agent output"⟩
    let reduced ← reduceCompletedStageOutputs
      [⟨operation.operationId, stageName operation, turns⟩] events
    pure (reduced.map (fun output => { output with findings := findings }))

structure Gathered (events : List JobEventRow) (operation : OperationRow)
    (completion : JobEventRow) (findings : Option Json.Value) (markers : List JobEventRow)
    (accepted : List (Option ValidatedAgentTurn)) : Prop where
  found : stageCompletion events operation = some completion
  settled : settledFindings completion = .ok findings
  marked : stageMarkers events operation completion = .ok markers
  validated : markers.mapM (fun marker =>
    acceptedTurn events marker operation.operationId completion.sequence) = .ok accepted

variable {operation : OperationRow} {completion : JobEventRow} {findings : Option Json.Value}
  {markers : List JobEventRow} {accepted : List (Option ValidatedAgentTurn)}

theorem Gathered.reduceOperation
    (h : Gathered events operation completion findings markers accepted) :
    reduceOperation events operation =
      concludeOperation events operation completion findings markers
      (sortTurns (accepted.filterMap id)) := by
  unfold Coordinator.reduceOperation
  rw [h.found]
  show (settledFindings completion >>= _) = _
  rw [h.settled]
  show (stageMarkers events operation completion >>= _) = _
  rw [h.marked]
  show (markers.mapM (fun marker =>
    acceptedTurn events marker operation.operationId completion.sequence) >>= _) = _
  rw [h.validated]
  rfl

variable {turns : List ValidatedAgentTurn}

theorem reduceOutputs_ok :
    reduceCompletedStageOutputs [stage] events = .ok outputs ↔
      ∃ output, reduceCompletedStageOutput events stage = .ok output ∧ [output] = outputs := by
  simp only [reduceCompletedStageOutputs,mapM_cons,mapM_nil,bind_ok,pure_ok]
  constructor
  · rintro ⟨output,reduced,rest,rfl,rfl⟩
    exact ⟨output,reduced,rfl⟩
  · rintro ⟨output,reduced,rfl⟩
    exact ⟨output,reduced,[],rfl,rfl⟩

def Bypasses (operation : OperationRow) (completion : JobEventRow)
    (turns : List ValidatedAgentTurn) : Prop :=
  stageName operation = "remediate" ∧ turns = [] ∧ completion.turnRole = some .review

theorem concludeOperation_ok
    (h : concludeOperation events operation completion findings markers turns = .ok outputs) :
    ∃ output, outputs = [output] ∧ output.operationId = operation.operationId ∧
      (Bypasses operation completion turns ∧ output.markdown = approvedNoRemediation ∨
        turns.length = markers.length ∧
        (stageName operation = "remediate" → output.markdown ≠ approvedNoRemediation) ∧
        ∀ turn ∈ turns, (reduceTurn events operation.operationId turn).isSome = true) := by
  unfold concludeOperation at h
  split at h
  · next bypasses =>
    obtain rfl := pure_ok.mp h
    exact ⟨_,rfl,rfl,.inl ⟨bypasses,rfl⟩⟩
  · simp only [bind_ok,pure_ok,ensure_ok,reduceOutputs_ok] at h
    obtain ⟨-,length,reduced,⟨output,found,rfl⟩,rfl⟩ := h
    obtain ⟨named,transcript,each⟩ := reduceCompleted_ok found
    exact ⟨_,rfl,named,.inr ⟨length,transcript,each⟩⟩

theorem concludeOperation_bypass (h : Bypasses operation completion turns) :
    concludeOperation events operation completion findings markers turns =
      .ok [⟨operation.operationId, stageName operation, approvedNoRemediation, findings⟩] := by
  unfold concludeOperation
  exact if_pos h

theorem concludeOperation_exists (nonempty : turns ≠ []) (length : turns.length = markers.length)
    (each : ∀ turn ∈ turns, (reduceTurn events operation.operationId turn).isSome = true)
    (shape : stageName operation = "remediate" ∨ turns.length = 1) :
    ∃ outputs, concludeOperation events operation completion findings markers turns =
      .ok outputs := by
  obtain ⟨output,reduced⟩ := @reduceCompleted_exists events
    ⟨operation.operationId,stageName operation,turns⟩ nonempty each shape
  unfold concludeOperation
  rw [if_neg fun bypasses => nonempty bypasses.2.1]
  refine ⟨[{ output with findings := findings }],?_⟩
  simp only [bind_ok,pure_ok,ensure_ok,reduceOutputs_ok]
  exact ⟨(),length,[output],⟨output,reduced,rfl⟩,rfl⟩

end Coordinator
