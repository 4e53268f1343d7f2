import Factory.Runtime.Stages
import Factory.Coordinator.Domain

namespace Runtime

open Extension Coordinator Result

def stageCheckpointKind : String := "factory.stage"

def u32Max : Nat := 4294967295

inductive StageCheckpointPhase where
  | awaitingTurn
  | turnCompleted
  | completed
  deriving DecidableEq

inductive StageTurnRole where
  | stage
  | remediation
  | review
  deriving DecidableEq

inductive StageCheckpointError where
  | wrongKind (actual : String)
  | malformed (detail : String)
  deriving DecidableEq

def StageCheckpointError.message : StageCheckpointError → String
  | .wrongKind actual => "checkpoint kind must be " ++ stageCheckpointKind ++ ", got " ++ actual
  | .malformed detail => "malformed stage checkpoint: " ++ detail

def requireCheckpointText (field value : String) : Except StageCheckpointError Unit :=
  ensure (¬ Text.isBlank value) (.malformed (field ++ " must not be empty"))

structure StageLineage where
  parentExecutionThreadId : String
  activeThreadId : String
  turnId : String
  deriving DecidableEq

namespace StageLineage

def validate (lineage : StageLineage) : Except StageCheckpointError Unit := do
  requireCheckpointText "parentExecutionThreadId" lineage.parentExecutionThreadId
  requireCheckpointText "activeThreadId" lineage.activeThreadId
  requireCheckpointText "turnId" lineage.turnId

def new (parentExecutionThreadId activeThreadId turnId : String) :
    Except StageCheckpointError StageLineage := do
  let lineage : StageLineage := ⟨parentExecutionThreadId, activeThreadId, turnId⟩
  lineage.validate
  pure lineage

end StageLineage

structure FactoryStateBaselines where
  revision : Nat
  reviewGeneration : Option Nat
  expectedReviewParentTurnId : Option String
  deriving DecidableEq

structure StageCheckpoint where
  operation : OperationKind
  parentExecutionThreadId : String
  activeThreadId : String
  turnId : String
  phase : StageCheckpointPhase
  turnRole : StageTurnRole
  reviewCycle : Nat
  stateRevisionBaseline : Nat
  reviewGenerationBaseline : Option Nat
  expectedReviewParentTurnId : Option String
  deriving DecidableEq

def roleMatches : OperationKind → StageTurnRole → Nat → Bool
  | .plan, .stage, 0 | .execute, .stage, 0 | .iterate, .stage, 0 => true
  | .review, .review, 0 => true
  | .remediate, .remediation, _ + 1 | .remediate, .review, _ + 1 => true
  | _, _, _ => false

namespace StageCheckpoint

def lineage (checkpoint : StageCheckpoint) : StageLineage :=
  ⟨checkpoint.parentExecutionThreadId, checkpoint.activeThreadId, checkpoint.turnId⟩

def baselines (checkpoint : StageCheckpoint) : FactoryStateBaselines :=
  ⟨checkpoint.stateRevisionBaseline, checkpoint.reviewGenerationBaseline,
    checkpoint.expectedReviewParentTurnId⟩

def validate (checkpoint : StageCheckpoint) : Except StageCheckpointError Unit := do
  checkpoint.lineage.validate
  ensure (roleMatches checkpoint.operation checkpoint.turnRole checkpoint.reviewCycle)
    (.malformed "turnRole and reviewCycle do not match the operation")
  ensure ((checkpoint.turnRole = .review) ↔ checkpoint.reviewGenerationBaseline.isSome)
    (.malformed "reviewGenerationBaseline must be present only for review turns")
  ensure ((checkpoint.turnRole = .review) ↔ checkpoint.expectedReviewParentTurnId.isSome)
    (.malformed "expectedReviewParentTurnId must be present only for review turns")
  match checkpoint.expectedReviewParentTurnId with
  | none => pure ()
  | some parentTurnId => requireCheckpointText "expectedReviewParentTurnId" parentTurnId

def build (phase : StageCheckpointPhase) (operation : OperationKind) (lineage : StageLineage)
    (turnRole : StageTurnRole) (reviewCycle : Nat) (baselines : FactoryStateBaselines) :
    StageCheckpoint :=
  ⟨operation, lineage.parentExecutionThreadId, lineage.activeThreadId, lineage.turnId, phase,
    turnRole, reviewCycle, baselines.revision, baselines.reviewGeneration,
    baselines.expectedReviewParentTurnId⟩

def new (operation : OperationKind) (lineage : StageLineage) (phase : StageCheckpointPhase)
    (turnRole : StageTurnRole) (reviewCycle : Nat) (baselines : FactoryStateBaselines) :
    Except StageCheckpointError StageCheckpoint := do
  let checkpoint := build phase operation lineage turnRole reviewCycle baselines
  checkpoint.validate
  pure checkpoint

def turnCompleted (operation : OperationKind) (lineage : StageLineage) (turnRole : StageTurnRole)
    (reviewCycle : Nat) (baselines : FactoryStateBaselines) :
    Except StageCheckpointError StageCheckpoint :=
  new operation lineage .turnCompleted turnRole reviewCycle baselines

def completed (operation : OperationKind) (lineage : StageLineage) (turnRole : StageTurnRole)
    (reviewCycle : Nat) (baselines : FactoryStateBaselines) :
    Except StageCheckpointError StageCheckpoint :=
  new operation lineage .completed turnRole reviewCycle baselines

theorem new_ok {operation : OperationKind} {lineage : StageLineage} {phase : StageCheckpointPhase}
    {turnRole : StageTurnRole} {reviewCycle : Nat} {baselines : FactoryStateBaselines}
    {checkpoint : StageCheckpoint}
    (h : new operation lineage phase turnRole reviewCycle baselines = .ok checkpoint) :
    checkpoint = build phase operation lineage turnRole reviewCycle baselines ∧
      checkpoint.validate = .ok () := by
  simp only [new,bind_ok,pure_ok] at h
  obtain ⟨_,valid,rfl⟩ := h
  exact ⟨rfl,valid⟩

end StageCheckpoint

end Runtime
