import Factory.Runtime.Checkpoint

namespace Runtime

open Extension Coordinator Result

variable (order : List String → List String)

def StageResult.text {α : Type} : StageResult α → Except String α
  | .ok value => .ok value
  | .error error => .error error.message

def debugOptional : Option String → String
  | none => "None"
  | some value => "Some(" ++ Text.debug value ++ ")"

def requireAdvance (state : FactoryState) (checkpoint : StageCheckpoint) : Except String Unit :=
  ensure (checkpoint.stateRevisionBaseline < state.revision)
    ("Factory state revision " ++ toString state.revision ++ " did not advance beyond " ++
      toString checkpoint.stateRevisionBaseline)

def checkpointReviewBaseline (checkpoint : StageCheckpoint) : Except String ReviewBaseline := do
  let generation ← okOr checkpoint.reviewGenerationBaseline
    "review checkpoint has no review generation baseline"
  let parentTurnId ← okOr checkpoint.expectedReviewParentTurnId
    "review checkpoint has no expected parent turn"
  (ReviewBaseline.fromParts generation checkpoint.parentExecutionThreadId parentTurnId).text

def validateStageTurn (state : FactoryState) (checkpoint : StageCheckpoint) :
    Except String Unit := do
  (checkpoint.operation.validate order state none).text
  if checkpoint.operation = .iterate then pure () else requireAdvance state checkpoint

def validateRemediationTurn (state : FactoryState) (checkpoint : StageCheckpoint) :
    Except String Unit := do
  (OperationKind.remediate.validate order state none).text
  let report ← okOr state.review "Factory state has no review"
  if report.verdict = .approve then pure () else requireAdvance state checkpoint

def validateReviewTurn (state : FactoryState) (checkpoint : StageCheckpoint) :
    Except String Unit := do
  let baseline ← checkpointReviewBaseline checkpoint
  (OperationKind.review.validate order state (some baseline)).text
  let report ← okOr state.review "Factory state has no review"
  ensure (report.recordedThreadId = some checkpoint.activeThreadId)
    ("review was recorded by thread " ++ debugOptional report.recordedThreadId ++ ", expected " ++
      Text.debug checkpoint.activeThreadId)
  ensure (report.recordedTurnId = some checkpoint.turnId)
    ("review was recorded by turn " ++ debugOptional report.recordedTurnId ++ ", expected " ++
      Text.debug checkpoint.turnId)

def validateCheckpointState (state : FactoryState) (checkpoint : StageCheckpoint) :
    Except String Unit :=
  match checkpoint.turnRole with
  | .stage => validateStageTurn order state checkpoint
  | .remediation => validateRemediationTurn order state checkpoint
  | .review => validateReviewTurn order state checkpoint

def reviewBaselines (state : FactoryState) (baseline : ReviewBaseline) : FactoryStateBaselines :=
  ⟨state.revision, some baseline.generation, some baseline.parentTurnId⟩

def finalCheckpoint (checkpoint : StageCheckpoint) :
    Except StageCheckpointError StageCheckpoint :=
  StageCheckpoint.completed checkpoint.operation checkpoint.lineage checkpoint.turnRole
    checkpoint.reviewCycle checkpoint.baselines

end Runtime
