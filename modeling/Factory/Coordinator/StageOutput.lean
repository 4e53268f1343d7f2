import Mathlib.Data.List.Sort
import Factory.Library.Assoc
import Factory.Library.Result
import Factory.Library.Table
import Factory.Coordinator.Domain

namespace Coordinator

open Result Table

inductive StageOutputTurnRole where
  | stage
  | remediation
  | review
  deriving DecidableEq

namespace StageOutputTurnRole

def heading : StageOutputTurnRole → String
  | .stage => "Stage"
  | .remediation => "Remediation"
  | .review => "Review"

def rank : StageOutputTurnRole → Nat
  | .remediation => 0
  | .review => 1
  | .stage => 2

def parse (value : String) : Option StageOutputTurnRole :=
  if value = "stage" then some .stage
  else if value = "remediation" then some .remediation
  else if value = "review" then some .review
  else none

end StageOutputTurnRole

structure ValidatedAgentTurn where
  attemptId : AttemptId
  turnId : String
  role : StageOutputTurnRole
  reviewCycle : Nat
  deriving DecidableEq

structure ValidatedStageOutput where
  operationId : OperationId
  stage : String
  turns : List ValidatedAgentTurn

structure CompletedStageOutput where
  operationId : OperationId
  stage : String
  markdown : String
  findings : Option Json.Value
  deriving DecidableEq

def approvedNoRemediation : String :=
  "No remediation was required because review approved the result."

structure StageOutputReductionError where
  message : String
  deriving DecidableEq

abbrev Reduction (α : Type) := Except StageOutputReductionError α

structure AgentMessage where
  streamed : String
  complete : String
  phase : Option String
  completedSequence : Option Nat
  deriving DecidableEq

namespace AgentMessage

def default : AgentMessage := ⟨"", "", none, none⟩

def read (message : AgentMessage) (event : JobEventRow) : AgentMessage :=
  match event.payload.text "text" with
  | none => message
  | some text =>
    if event.kind = "agent.message" then { message with streamed := message.streamed ++ text }
    else { message with complete := text }

def observe (message : AgentMessage) (event : JobEventRow) : AgentMessage :=
  let message := { message with phase := (event.payload.text "phase").or message.phase }
  let message := message.read event
  if event.kind = "agent.message.completed" then
    { message with completedSequence := some event.sequence }
  else message

def markdown (message : AgentMessage) : String :=
  if message.complete = "" then message.streamed else message.complete

def candidate (allowCommentary : Bool) (message : AgentMessage) : Option (Nat × String) :=
  match message.completedSequence with
  | none => none
  | some sequence =>
    if (allowCommentary = true ∨ message.phase ≠ some "commentary") ∧
        Text.isBlank message.markdown = false then
      some (sequence, message.markdown)
    else none

end AgentMessage

def isMessageKind (kind : String) : Bool :=
  kind = "agent.message" ∨ kind = "agent.message.started" ∨ kind = "agent.message.completed"

def turnMessages (events : List JobEventRow) (operationId : OperationId) (attemptId : AttemptId)
    (turnId : String) : List JobEventRow :=
  events.filter (fun event => event.operationId = some operationId ∧
    event.attemptId = some attemptId ∧ event.payload.text "turnId" = some turnId ∧
    isMessageKind event.kind ∧ (event.payload.text "itemId").isSome)

def collectMessages (events : List JobEventRow) : List (String × AgentMessage) :=
  Assoc.gather (fun event => (event.payload.text "itemId").getD "")
    (fun event message => (message.getD .default).observe event) events []

def choose (allowCommentary : Bool) (messages : List (String × AgentMessage)) : Option String :=
  (maxByKey Prod.fst (messages.filterMap (fun entry => entry.2.candidate allowCommentary))).map
    Prod.snd

def reduceTurn (events : List JobEventRow) (operationId : OperationId)
    (validated : ValidatedAgentTurn) : Option String :=
  let messages := collectMessages
    (turnMessages events operationId validated.attemptId validated.turnId)
  (choose false messages).or (choose true messages)

def transcriptEntry (turn : ValidatedAgentTurn) (output : String) : String :=
  "### Cycle " ++ toString turn.reviewCycle ++ ": " ++ turn.role.heading ++ "\n\nAttempt: `" ++
    turn.attemptId ++ "`  \nTurn: `" ++ turn.turnId ++ "`\n\n" ++ output

def appendEntry (markdown : String) (entry : (ValidatedAgentTurn × String) × Nat) : String :=
  let markdown := if 0 < entry.2 then markdown ++ "\n" else markdown
  let markdown := markdown ++ transcriptEntry entry.1.1 entry.1.2
  if Text.endsWith '\n' markdown then markdown else markdown ++ "\n"

def renderRemediationTranscript (turns : List (ValidatedAgentTurn × String)) : String :=
  turns.zipIdx.foldl appendEntry ""

def renderTurns (stage : String) (turns : List (ValidatedAgentTurn × String)) :
    Reduction String :=
  if stage = "remediate" then .ok (renderRemediationTranscript turns)
  else
    match turns with
    | [(_, markdown)] => .ok markdown
    | _ => .error ⟨"single-turn " ++ stage ++ " stage has " ++ toString turns.length ++
        " validated turns"⟩

def reduceStageTurn (events : List JobEventRow) (stage : ValidatedStageOutput)
    (turn : ValidatedAgentTurn) : Reduction (ValidatedAgentTurn × String) := do
  let markdown ← okOr (reduceTurn events stage.operationId turn)
    ⟨"validated " ++ stage.stage ++ " turn " ++ turn.turnId ++ " from attempt " ++
      turn.attemptId ++ " has no completed agent output"⟩
  pure (turn, markdown)

def reduceCompletedStageOutput (events : List JobEventRow) (stage : ValidatedStageOutput) :
    Reduction CompletedStageOutput := do
  ensure (stage.turns ≠ []) ⟨"validated " ++ stage.stage ++ " stage has no agent turns"⟩
  let turns ← stage.turns.mapM (reduceStageTurn events stage)
  let markdown ← renderTurns stage.stage turns
  pure ⟨stage.operationId, stage.stage, markdown, none⟩

def reduceCompletedStageOutputs (validated : List ValidatedStageOutput)
    (events : List JobEventRow) : Reduction (List CompletedStageOutput) :=
  validated.mapM (reduceCompletedStageOutput events)

def settledFindings (completion : JobEventRow) : Reduction (Option Json.Value) :=
  match completion.payload.get "findings" with
  | none => .ok none
  | some findings =>
    if findings.isArray then .ok (some findings)
    else .error ⟨"settled stage findings payload is not an array"⟩

def JobEventRow.turnRole (event : JobEventRow) : Option StageOutputTurnRole :=
  (event.payload.text "role").bind StageOutputTurnRole.parse

def JobEventRow.reviewCycle (event : JobEventRow) : Option Nat :=
  ((event.payload.get "reviewCycle").bind Json.Value.asU64).filter (· ≤ 4294967295)

def lastCompletedMessage (events : List JobEventRow) (operationId : OperationId)
    (upperSequence : Nat) (turnId : String) : Option JobEventRow :=
  maxByKey (·.sequence) (events.filter (fun event => event.sequence ≤ upperSequence ∧
    event.operationId = some operationId ∧ event.kind = "agent.message.completed" ∧
    event.payload.text "turnId" = some turnId))

def acceptedTurn (events : List JobEventRow) (marker : JobEventRow) (operationId : OperationId)
    (upperSequence : Nat) : Reduction (Option ValidatedAgentTurn) := do
  let turnId ← okOr (marker.payload.text "turnId") ⟨"validated turn marker has no turnId"⟩
  let role ← okOr marker.turnRole ⟨"validated turn marker has no valid role"⟩
  let reviewCycle ← okOr marker.reviewCycle ⟨"validated turn marker has no valid cycle"⟩
  let attemptId := (lastCompletedMessage events operationId upperSequence turnId).bind (·.attemptId)
  pure (attemptId.map (fun attemptId => ⟨attemptId, turnId, role, reviewCycle⟩))

abbrev MarkerSlot := Nat × StageOutputTurnRole

def MarkerSlot.upTo (left right : MarkerSlot) : Prop :=
  left.1 < right.1 ∨ left.1 = right.1 ∧ left.2.rank ≤ right.2.rank

instance (left right : MarkerSlot) : Decidable (left.upTo right) :=
  inferInstanceAs (Decidable (_ ∨ _))

def JobEventRow.slot (event : JobEventRow) : Option MarkerSlot :=
  match event.turnRole, event.reviewCycle with
  | some role, some cycle => some (cycle, role)
  | _, _ => none

def cycleMarkers (events : List JobEventRow) (operationId : OperationId)
    (completion : JobEventRow) (terminal : MarkerSlot) : List (MarkerSlot × JobEventRow) :=
  (events.filter (fun event => event.sequence ≤ completion.sequence ∧
    event.operationId = some operationId ∧ event.kind = "review_cycle.turn_completed")).filterMap
    (fun marker => (marker.slot.filter (fun slot => slot.upTo terminal)).map (·, marker))

def latestMarker (marker : JobEventRow) (found : Option JobEventRow) : JobEventRow :=
  match found with
  | none => marker
  | some slot => if slot.sequence < marker.sequence then marker else slot

def markersBySlot (events : List JobEventRow) (operationId : OperationId)
    (completion : JobEventRow) (terminal : MarkerSlot) : List (MarkerSlot × JobEventRow) :=
  let latest := Assoc.gather Prod.fst (fun entry => latestMarker entry.2)
    (cycleMarkers events operationId completion terminal) []
  Assoc.alter terminal (fun _ => completion) latest

def remediationMarkers (events : List JobEventRow) (operationId : OperationId)
    (completion : JobEventRow) : Reduction (List JobEventRow) := do
  let terminalRole ← okOr completion.turnRole ⟨"completion marker has no valid role"⟩
  let terminalCycle ← okOr completion.reviewCycle ⟨"completion marker has no valid cycle"⟩
  let latest := markersBySlot events operationId completion (terminalCycle, terminalRole)
  pure ((latest.insertionSort (fun left right => left.1.upTo right.1)).map Prod.snd)

def sortTurns (turns : List ValidatedAgentTurn) : List ValidatedAgentTurn :=
  turns.insertionSort (fun left right =>
    MarkerSlot.upTo (left.reviewCycle, left.role) (right.reviewCycle, right.role))

def stageName (operation : OperationRow) : String :=
  (Text.stripPrefix "codex." operation.kind).getD operation.kind

def stageCompletion (events : List JobEventRow) (operation : OperationRow) : Option JobEventRow :=
  maxByKey (·.sequence) (events.filter (fun event =>
    event.operationId = some operation.operationId ∧ event.kind = "stage.completed"))

def stageMarkers (events : List JobEventRow) (operation : OperationRow)
    (completion : JobEventRow) : Reduction (List JobEventRow) :=
  if stageName operation = "remediate" then
    remediationMarkers events operation.operationId completion
  else .ok [completion]

def reduceOperation (events : List JobEventRow) (operation : OperationRow) :
    Reduction (List CompletedStageOutput) := do
  let stage := stageName operation
  let completion ← okOr (stageCompletion events operation)
    ⟨"settled " ++ stage ++ " stage has no completion event"⟩
  let findings ← settledFindings completion
  let markers ← stageMarkers events operation completion
  let accepted ← markers.mapM (fun marker =>
    acceptedTurn events marker operation.operationId completion.sequence)
  let turns := sortTurns (accepted.filterMap id)
  if stage = "remediate" ∧ turns = [] ∧ completion.turnRole = some .review then
    pure [⟨operation.operationId, stage, approvedNoRemediation, findings⟩]
  else
    ensure (turns.length = markers.length)
      ⟨"settled " ++ stage ++ " stage has an accepted turn without completed agent output"⟩
    let reduced ← reduceCompletedStageOutputs [⟨operation.operationId, stage, turns⟩] events
    pure (reduced.map (fun output => { output with findings := findings }))

def settledOperations (operations : List OperationRow) : List OperationRow :=
  (operations.filter (fun operation => operation.status = .succeeded)).insertionSort
    (fun left right => left.ordinal ≤ right.ordinal)

def reduceSettledJobOutputs (operations : List OperationRow) (events : List JobEventRow) :
    Reduction (List CompletedStageOutput) := do
  let outputs ← (settledOperations operations).mapM (reduceOperation events)
  pure outputs.flatten

end Coordinator
