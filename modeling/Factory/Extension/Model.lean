import Factory.Library.Text

namespace Extension

def u64Max : Nat := 18446744073709551615

def saturatingSucc (n : Nat) : Nat := min (n + 1) u64Max

inductive FactorySubagentHistorySource where
  | coordinatorJobEvents
  deriving DecidableEq

inductive FactorySubagentTool where
  | spawnAgent
  | sendInput
  | resumeAgent
  | wait
  | closeAgent
  | interact
  | interruptAgent
  deriving DecidableEq

inductive FactorySubagentToolCallStatus where
  | inProgress
  | completed
  | failed
  deriving DecidableEq

inductive FactorySubagentStatus where
  | pendingInit
  | running
  | interrupted
  | completed
  | errored
  | shutdown
  | notFound
  deriving DecidableEq

structure FactorySubagentState where
  threadId : String
  status : FactorySubagentStatus
  terminal : Bool
  message : Option String
  deriving DecidableEq

structure FactorySubagentActivity where
  callId : String
  turnId : String
  senderThreadId : String
  receiverThreadIds : List String
  tool : FactorySubagentTool
  prompt : Option String
  status : FactorySubagentToolCallStatus
  agents : List FactorySubagentState
  createdAt : String
  updatedAt : String
  deriving DecidableEq

structure FactorySubagentHistory where
  source : FactorySubagentHistorySource
  eventKind : String
  latestSequence : Nat
  deriving DecidableEq

inductive FactoryProgressStatus where
  | pending
  | inProgress
  | completed
  | blocked
  deriving DecidableEq

structure FactoryWorkUnit where
  id : String
  title : String
  description : String
  dependsOn : List String
  status : FactoryProgressStatus
  progressSummary : Option String
  deriving DecidableEq

inductive FactoryReviewVerdict where
  | approve
  | requestChanges
  | blocked
  deriving DecidableEq

inductive FactoryFindingSeverity where
  | critical
  | major
  | minor
  deriving DecidableEq

structure FactoryReviewFinding where
  id : String
  severity : FactoryFindingSeverity
  unitId : String
  title : String
  evidence : String
  recommendation : String
  deriving DecidableEq

structure FactoryReviewReport where
  generation : Nat
  recordedTurnId : Option String
  recordedThreadId : Option String
  recordedParentThreadId : Option String
  recordedParentTurnId : Option String
  recordedSubagentKind : Option String
  verdict : FactoryReviewVerdict
  summary : String
  findings : List FactoryReviewFinding
  deriving DecidableEq

inductive FactoryRemediationDisposition where
  | accepted
  | rejected
  | deferred
  | resolved
  deriving DecidableEq

structure FactoryRemediationRecord where
  findingId : String
  disposition : FactoryRemediationDisposition
  rationale : String
  unitId : String
  deriving DecidableEq

structure FactoryReviewCycle where
  review : FactoryReviewReport
  remediations : List FactoryRemediationRecord
  deriving DecidableEq

structure FactoryReviewRecoveryBaseline where
  revision : Nat
  review : Option FactoryReviewReport
  remediations : List FactoryRemediationRecord
  reviewHistory : List FactoryReviewCycle
  deriving DecidableEq

structure FactoryState where
  revision : Nat
  workUnits : List FactoryWorkUnit
  review : Option FactoryReviewReport
  remediations : List FactoryRemediationRecord
  reviewHistory : List FactoryReviewCycle
  subagents : List FactorySubagentActivity
  subagentHistory : Option FactorySubagentHistory
  reviewRecovery : Option FactoryReviewRecoveryBaseline
  deriving DecidableEq

namespace FactoryState

def default : FactoryState := ⟨0, [], none, [], [], [], none, none⟩

def baseline (state : FactoryState) : FactoryReviewRecoveryBaseline :=
  ⟨state.revision, state.review, state.remediations, state.reviewHistory⟩

def rollbackReviewRecovery (state : FactoryState) : Bool × FactoryState :=
  match state.reviewRecovery with
  | none => (false, state)
  | some baseline =>
    (true,
      { state with
        reviewRecovery := none
        revision := baseline.revision
        review := baseline.review
        remediations := baseline.remediations
        reviewHistory := baseline.reviewHistory })

def prepareReviewRecovery (state : FactoryState) : FactoryState :=
  let state := state.rollbackReviewRecovery.2
  { state with reviewRecovery := some state.baseline }

def commitReviewRecovery (state : FactoryState) : Bool × FactoryState :=
  (state.reviewRecovery.isSome, { state with reviewRecovery := none })

def currentGeneration (state : FactoryState) : Nat :=
  ((state.review.map (·.generation)).or
    (state.reviewHistory.getLast?.map (·.review.generation))).getD 0

def sameTurn (state : FactoryState) (review : FactoryReviewReport) : Bool :=
  state.review.any (fun current =>
    current.recordedTurnId.isSome && current.recordedTurnId = review.recordedTurnId)

def closeReviewCycle (state : FactoryState) : FactoryState :=
  match state.remediations, state.review with
  | [], _ => { state with review := none }
  | remediations, some review =>
    { state with
      review := none
      reviewHistory := state.reviewHistory ++ [⟨review, remediations⟩]
      remediations := [] }
  | _, none => { state with remediations := [] }

def recordReview (review : FactoryReviewReport) (state : FactoryState) : FactoryState :=
  if state.sameTurn review then
    { state with review := some { review with generation := max state.currentGeneration 1 } }
  else
    { state.closeReviewCycle with
      review := some { review with generation := saturatingSucc state.currentGeneration } }

end FactoryState

end Extension
