import Factory.Runtime.Checkpoint
import Factory.Library.Serde

namespace Runtime

open Extension Coordinator Result Serde

structure OperationCheckpoint where
  kind : String
  payload : Json.Value
  workspaceRoot : Option String
  workspaceRevision : Option String
  correlationId : Option CorrelationRecordId
  deriving DecidableEq

def OperationCheckpoint.intoNew (checkpoint : OperationCheckpoint) (fence : AttemptFence) :
    NewCheckpoint :=
  ⟨fence.attemptId, checkpoint.kind, checkpoint.payload, checkpoint.workspaceRoot,
    checkpoint.workspaceRevision, checkpoint.correlationId⟩

def StageCheckpointPhase.wireName : StageCheckpointPhase → String
  | .awaitingTurn => "awaitingTurn"
  | .turnCompleted => "turnCompleted"
  | .completed => "completed"

def StageCheckpointPhase.fromValue : Decoder StageCheckpointPhase :=
  variant [("awaitingTurn", .awaitingTurn), ("turnCompleted", .turnCompleted),
    ("completed", .completed)]

def StageTurnRole.wireName : StageTurnRole → String
  | .stage => "stage"
  | .remediation => "remediation"
  | .review => "review"

def StageTurnRole.fromValue : Decoder StageTurnRole :=
  variant [("stage", .stage), ("remediation", .remediation), ("review", .review)]

def OperationKind.fromValue : Decoder OperationKind := fun value => do
  let name ← string value
  (OperationKind.fromStr name).mapError StageValidationError.message

def stageCheckpointFields : List String :=
  ["operation", "parentExecutionThreadId", "activeThreadId", "turnId", "phase", "turnRole",
    "reviewCycle", "stateRevisionBaseline", "reviewGenerationBaseline",
    "expectedReviewParentTurnId"]

namespace StageCheckpoint

def toValue (checkpoint : StageCheckpoint) : Json.Value :=
  .object
    ([("operation", .string checkpoint.operation.asWireName),
      ("parentExecutionThreadId", .string checkpoint.parentExecutionThreadId),
      ("activeThreadId", .string checkpoint.activeThreadId),
      ("turnId", .string checkpoint.turnId),
      ("phase", .string checkpoint.phase.wireName),
      ("turnRole", .string checkpoint.turnRole.wireName),
      ("reviewCycle", unsigned checkpoint.reviewCycle),
      ("stateRevisionBaseline", unsigned checkpoint.stateRevisionBaseline)] ++
      optionalEntry "reviewGenerationBaseline" unsigned checkpoint.reviewGenerationBaseline ++
      optionalEntry "expectedReviewParentTurnId" .string checkpoint.expectedReviewParentTurnId)

def fromValue : Decoder StageCheckpoint := fun payload => do
  let payload ← record "StageCheckpoint" stageCheckpointFields 8 payload
  denyUnknown stageCheckpointFields payload
  let operation ← field "operation" OperationKind.fromValue payload
  let parentExecutionThreadId ← field "parentExecutionThreadId" string payload
  let activeThreadId ← field "activeThreadId" string payload
  let turnId ← field "turnId" string payload
  let phase ← field "phase" StageCheckpointPhase.fromValue payload
  let turnRole ← field "turnRole" StageTurnRole.fromValue payload
  let reviewCycle ← field "reviewCycle" u32 payload
  let stateRevisionBaseline ← field "stateRevisionBaseline" u64 payload
  let reviewGenerationBaseline ← nullable "reviewGenerationBaseline" u64 payload
  let expectedReviewParentTurnId ← nullable "expectedReviewParentTurnId" string payload
  pure ⟨operation, parentExecutionThreadId, activeThreadId, turnId, phase, turnRole, reviewCycle,
    stateRevisionBaseline, reviewGenerationBaseline, expectedReviewParentTurnId⟩

def encode (checkpoint : StageCheckpoint) (workspaceRoot workspaceRevision : Option String)
    (correlationId : Option CorrelationRecordId) :
    Except StageCheckpointError OperationCheckpoint := do
  checkpoint.validate
  pure ⟨stageCheckpointKind, checkpoint.toValue, workspaceRoot, workspaceRevision, correlationId⟩

def decode (record : CheckpointRecord) : Except StageCheckpointError StageCheckpoint := do
  ensure (record.kind = stageCheckpointKind) (.wrongKind record.kind)
  let checkpoint ← (fromValue record.payload).mapError .malformed
  checkpoint.validate
  pure checkpoint

structure InRange (checkpoint : StageCheckpoint) : Prop where
  cycle : checkpoint.reviewCycle ≤ u32Max
  revision : checkpoint.stateRevisionBaseline ≤ u64Max
  generation : ∀ generation ∈ checkpoint.reviewGenerationBaseline, generation ≤ u64Max

end StageCheckpoint

@[simp] theorem StageCheckpointPhase.fromValue_wireName (phase : StageCheckpointPhase) :
    fromValue (.string phase.wireName) = .ok phase := by
  cases phase <;> rfl

@[simp] theorem StageTurnRole.fromValue_wireName (role : StageTurnRole) :
    fromValue (.string role.wireName) = .ok role := by
  cases role <;> rfl

theorem OperationKind.fromStr_asWireName (kind : OperationKind) :
    fromStr kind.asWireName = .ok kind := by
  cases kind <;> rfl

@[simp] theorem OperationKind.fromValue_asWireName (kind : OperationKind) :
    fromValue (.string kind.asWireName) = .ok kind := by
  rw [fromValue,string_string,ok_bind,fromStr_asWireName]
  rfl

namespace StageCheckpoint

theorem toValue_known (checkpoint : StageCheckpoint) :
    denyUnknown stageCheckpointFields checkpoint.toValue = .ok () := by
  refine denyUnknown_object ?_
  intro field hit
  simp only [List.mem_append,optionalEntry,Option.mem_toList,Option.map_eq_some_iff] at hit
  rcases hit with (hit | ⟨_,_,rfl⟩) | ⟨_,_,rfl⟩
  · simp only [List.mem_cons,List.not_mem_nil,or_false] at hit
    rcases hit with rfl | rfl | rfl | rfl | rfl | rfl | rfl | rfl <;>
      simp [stageCheckpointFields]
  · simp [stageCheckpointFields]
  · simp [stageCheckpointFields]

variable {checkpoint : StageCheckpoint} {record : CheckpointRecord}

theorem fromValue_toValue (h : checkpoint.InRange) :
    fromValue checkpoint.toValue = .ok checkpoint := by
  have cycle : u32 (unsigned checkpoint.reviewCycle) = .ok checkpoint.reviewCycle :=
    bounded_unsigned h.cycle
  have generation : option u64 ((checkpoint.reviewGenerationBaseline.map unsigned).getD .null) =
      .ok checkpoint.reviewGenerationBaseline :=
    option_optionalValue (fun _ _ => nofun) fun value hit =>
      u64_unsigned (h.generation value hit)
  have map : record "StageCheckpoint" stageCheckpointFields 8 checkpoint.toValue =
      .ok checkpoint.toValue := rfl
  simp only [fromValue,map,toValue_known,ok_bind]
  simp [toValue,field,okOr,nullable,cycle,u64_unsigned h.revision,generation]

theorem encode_ok {workspaceRoot workspaceRevision : Option String}
    {correlationId : Option CorrelationRecordId} {encoded : OperationCheckpoint}
    (h : checkpoint.encode workspaceRoot workspaceRevision correlationId = .ok encoded) :
    checkpoint.validate = .ok () ∧
      encoded = ⟨stageCheckpointKind, checkpoint.toValue, workspaceRoot, workspaceRevision,
        correlationId⟩ := by
  simp only [encode,bind_ok,pure_ok] at h
  obtain ⟨_,valid,rfl⟩ := h
  exact ⟨valid,rfl⟩

theorem decode_encoded (valid : checkpoint.validate = .ok ()) (range : checkpoint.InRange)
    (kind : record.kind = stageCheckpointKind) (payload : record.payload = checkpoint.toValue) :
    decode record = .ok checkpoint := by
  simp only [decode,bind_ok,ensure_ok,mapError_ok,pure_ok]
  exact ⟨(),kind,checkpoint,payload ▸ fromValue_toValue range,(),valid,rfl⟩

theorem fromValue_range {payload : Json.Value} (h : fromValue payload = .ok checkpoint) :
    checkpoint.InRange := by
  simp only [fromValue,field,nullable,bind_ok,pure_ok] at h
  obtain ⟨_,_,_,_,_,_,_,_,_,_,_,_,_,_,_,_,_,⟨_,_,cycle⟩,_,⟨_,_,revision⟩,_,generation,_,_,rfl⟩ := h
  refine ⟨bounded_le cycle,bounded_le revision,fun value hit => ?_⟩
  cases hit
  exact bounded_le (option_some generation)

theorem decode_ok (h : decode record = .ok checkpoint) :
    checkpoint.validate = .ok () ∧ checkpoint.InRange := by
  simp only [decode,bind_ok,mapError_ok,pure_ok] at h
  obtain ⟨_,_,found,parsed,_,valid,rfl⟩ := h
  exact ⟨valid,fromValue_range parsed⟩

end StageCheckpoint

end Runtime
