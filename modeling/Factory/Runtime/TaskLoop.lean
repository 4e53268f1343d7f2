import Factory.Extension.ToolRun
import Factory.Runtime.StageLoop

namespace Runtime

open Extension

inductive ExecutePoint where
  | idle
  | enter
  | start (plan : TurnPlan)
  | await (plan : TurnPlan) (turn : TurnRef)
  | wait (plan : TurnPlan) (turn : TurnRef)
  | record (plan : TurnPlan) (turn : TurnRef)
  | evaluate (checkpoint : StageCheckpoint)
  | complete (checkpoint : StageCheckpoint)
  deriving DecidableEq

structure ExecuteLoop where
  previous : StageCheckpoint
  latest : Option StageCheckpoint
  thread : FactoryThreadState
  turn : Option RunningTurn
  started : List TurnRef
  finished : List TurnRef
  point : ExecutePoint
  deriving DecidableEq

namespace ExecuteLoop

def parentThreadId (e : ExecuteLoop) : String :=
  (e.latest.getD e.previous).parentExecutionThreadId

def abort (e : ExecuteLoop) : ExecuteLoop :=
  { e with turn := none, thread := { e.thread with cached := none }, point := .idle }

def finalize (e : ExecuteLoop) (checkpoint : StageCheckpoint) : ExecuteLoop :=
  match finalCheckpoint checkpoint with
  | .ok completed => { e with point := .complete completed }
  | .error _ => e.abort

def enter (config : ExecutorConfig) (e : ExecuteLoop) : ExecuteLoop :=
  match e.latest with
  | none =>
    { e with point := .start ⟨.stage, 0, ⟨e.thread.load.revision, none, none⟩⟩ }
  | some checkpoint =>
    if checkpoint.phase = .awaitingTurn ∧ checkpoint.turn ∉ e.finished then
      { e with point := .start checkpoint.plan }
    else
      match validateCheckpointState config.order e.thread.load checkpoint with
      | .ok _ => e.finalize checkpoint
      | .error _ =>
        if checkpoint.phase = .completed then e.abort
        else { e with point := .start checkpoint.plan }

def checkpointOf (e : ExecuteLoop) (phase : StageCheckpointPhase) (plan : TurnPlan)
    (turn : TurnRef) : Except StageCheckpointError StageCheckpoint := do
  let lineage ← StageLineage.new e.parentThreadId turn.threadId turn.turnId
  StageCheckpoint.new .execute lineage phase plan.role plan.cycle plan.baselines

def advance (config : ExecutorConfig) (e : ExecuteLoop) : ExecuteLoop :=
  match e.point with
  | .idle | .start _ | .complete _ => e
  | .enter => e.enter config
  | .await plan turn =>
    match e.checkpointOf .awaitingTurn plan turn with
    | .error _ => e.abort
    | .ok checkpoint => { e with latest := some checkpoint, point := .wait plan turn }
  | .wait plan turn =>
    if e.turn.any (·.completed) then { e with turn := none, point := .record plan turn } else e
  | .record plan turn =>
    match e.checkpointOf .turnCompleted plan turn with
    | .error _ => e.abort
    | .ok checkpoint => { e with latest := some checkpoint, point := .evaluate checkpoint }
  | .evaluate checkpoint =>
    match validateCheckpointState config.order e.thread.load checkpoint with
    | .ok _ => e.finalize checkpoint
    | .error _ => e.abort

def beginTurn (e : ExecuteLoop) (turn : TurnRef) : ExecuteLoop :=
  match e.point with
  | .start plan =>
    { e with
      turn := some ⟨turn, plan, false⟩
      started := turn :: e.started
      point := .await plan turn }
  | _ => e

def duringTurn (e : ExecuteLoop) (f : FactoryThreadState → FactoryThreadState) : ExecuteLoop :=
  match e.turn with
  | none => e
  | some running => if running.completed then e else { e with thread := f e.thread }

def mayCall (call : FactoryToolCall) : Bool := call.stage = OperationKind.execute.turnStage

def step (config : ExecutorConfig) (e : ExecuteLoop) : LoopStep → ExecuteLoop
  | .attempt => if e.point = .idle then { e with point := .enter } else e
  | .advance => e.advance config
  | .started turn => e.beginTurn turn
  | .fail | .crash => e.abort
  | .prompt => e.duringTurn FactoryThreadState.loadIfNeeded
  | .tool call => e.duringTurn fun thread => if mayCall call then thread.call call else thread
  | .activity activity archive => e.duringTurn fun thread => thread.upsertActivity activity archive
  | .finish =>
    match e.turn with
    | none => e
    | some running =>
      { e with
        turn := some { running with completed := true }
        finished := running.turn :: e.finished }
  | .mutate | .iterated _ _ => e

def settle (e : ExecuteLoop) (checkpoint : StageCheckpoint) : StageLoop :=
  ⟨.review, checkpoint, none, [checkpoint], { e.thread with cached := none }, ⟨none, false⟩, none,
    e.started, e.finished, .idle, none, [], []⟩

end ExecuteLoop

inductive PlanEvent where
  | decompose (order : List String → List String) (units : List WorkUnitArgs)
  | activity (activity : FactorySubagentActivity) (archive : Option Nat)

def PlanEvent.apply (thread : FactoryThreadState) : PlanEvent → FactoryThreadState
  | .decompose order units => thread.call (.decompose order units)
  | .activity recorded archive => thread.upsertActivity recorded archive

def planThread (events : List PlanEvent) : FactoryThreadState :=
  Machine.run PlanEvent.apply ⟨some .default, none⟩ events

inductive TaskLoop where
  | executing (e : ExecuteLoop)
  | reviewing (s : StageLoop)
  deriving DecidableEq

namespace TaskLoop

def start (plan : StageCheckpoint) (events : List PlanEvent) : TaskLoop :=
  .executing ⟨plan, none, { planThread events with cached := none }, none, [plan.turn],
    [plan.turn], .idle⟩

def state : TaskLoop → FactoryState
  | .executing e => e.thread.load
  | .reviewing s => s.thread.load

def parentThreadId : TaskLoop → String
  | .executing e => e.parentThreadId
  | .reviewing s => s.parentThreadId

def startedTurns : TaskLoop → List TurnRef
  | .executing e => e.started
  | .reviewing s => s.started

def starting : TaskLoop → Option TurnPlan
  | .executing e =>
    match e.point with
    | .start plan => some plan
    | _ => none
  | .reviewing s =>
    match s.point with
    | .start plan => some plan
    | _ => none

def completing : TaskLoop → Bool
  | .executing e =>
    match e.point with
    | .complete _ => true
    | _ => false
  | .reviewing s => s.point.completing

def claimable : TaskLoop → Bool
  | .executing e => e.point = .idle
  | .reviewing s => s.point = .idle && s.operation = .remediate

def issues (t : TaskLoop) (turn : TurnRef) : Bool :=
  !Text.isBlank turn.threadId && !Text.isBlank turn.turnId &&
    (t.startedTurns.map TurnRef.turnId).all (· ≠ turn.turnId) &&
    (t.starting.all (·.role ≠ .review) || turn.threadId ≠ t.parentThreadId)

def admits (t : TaskLoop) : LoopStep → Bool
  | .started turn => t.issues turn
  | .iterated previous _ => previous.validate.isOk
  | _ => true

def take (config : ExecutorConfig) : TaskLoop → LoopStep → TaskLoop
  | .executing e, input =>
    match input, e.point with
    | .advance, .complete checkpoint => .reviewing (e.settle checkpoint)
    | _, _ => .executing (e.step config input)
  | .reviewing s, input => .reviewing (s.step config input)

def step (config : ExecutorConfig) (t : TaskLoop) (input : LoopStep) : TaskLoop :=
  if t.admits input then t.take config input else t

def checkpointOf (t : TaskLoop) (phase : StageCheckpointPhase) (plan : TurnPlan)
    (turn : TurnRef) : Except StageCheckpointError StageCheckpoint :=
  match t with
  | .executing e => e.checkpointOf phase plan turn
  | .reviewing s => s.checkpointOf phase plan turn

def offers (t : TaskLoop) (call : FactoryToolCall) : Bool :=
  match t with
  | .executing e => e.turn.isSome && ExecuteLoop.mayCall call
  | .reviewing s => s.turn.any (fun running => s.mayCall running call)

def Accepts (t : TaskLoop) : LoopStep → Prop
  | .tool call => t.offers call = true ∧ ∃ next, call.apply t.state = .ok next
  | _ => False

def Passable (config : ExecutorConfig) (t : TaskLoop) (plan : TurnPlan) : Prop :=
  ∀ turn, t.issues turn = true → ∃ checkpoint,
    t.checkpointOf .awaitingTurn plan turn = .ok checkpoint ∧ ∃ calls : List FactoryToolCall,
      Machine.Along (step config) Accepts (t.step config (.started turn)) (calls.map .tool) ∧
        validateCheckpointState config.order
          (Machine.run (step config) (t.step config (.started turn)) (calls.map .tool)).state
          checkpoint = .ok ()

def Spent (config : ExecutorConfig) : TaskLoop → Prop
  | .executing _ => False
  | .reviewing s => s.point = .commit .fail ∧ ∃ checkpoint ∈ s.latest,
      checkpoint.turnRole = .review ∧ config.maxReviewCycles ≤ checkpoint.reviewCycle ∧
        validateCheckpointState config.order s.thread.load checkpoint = .ok ()

def nextRun (config : ExecutorConfig) (t : TaskLoop) (steps : Nat) : TaskLoop :=
  Machine.run (step config) t (.attempt :: List.replicate steps .advance)

def Unwedged (config : ExecutorConfig) (t : TaskLoop) : Prop :=
  ∃ steps, (t.nextRun config steps).completing = true ∨ (t.nextRun config steps).Spent config ∨
    ∃ plan, (t.nextRun config steps).starting = some plan ∧
      (t.nextRun config steps).Passable config plan

def Sheltered : TaskLoop → LoopStep → Prop
  | .executing e, .crash | .executing e, .fail =>
    e.latest = none → e.turn.isSome = true →
      ∃ unit ∈ e.thread.load.workUnits, unit.status ≠ .completed
  | .reviewing s, .crash | .reviewing s, .fail =>
    s.operation = .remediate → (∀ checkpoint ∈ s.latest, checkpoint.turnRole = .remediation) →
      ∀ running ∈ s.turn, running.plan.role = .review →
        ∀ report ∈ s.thread.load.review, ¬ recordedBy running.turn report
  | .reviewing s, .tool _ | .reviewing s, .activity _ _ =>
    s.turn ≠ none → ∀ cached ∈ s.thread.cached,
      cached = s.thread.load ∨ cached = s.thread.load.rollbackReviewRecovery.2
  | _, _ => True

instance : ∀ (t : TaskLoop) (input : LoopStep), Decidable (t.Sheltered input)
  | .executing e, .crash | .executing e, .fail =>
    inferInstanceAs (Decidable (e.latest = none → e.turn.isSome = true → _))
  | .reviewing s, .crash | .reviewing s, .fail =>
    inferInstanceAs (Decidable (s.operation = .remediate →
      (∀ checkpoint ∈ s.latest, checkpoint.turnRole = .remediation) → _))
  | .reviewing s, .tool _ | .reviewing s, .activity _ _ =>
    inferInstanceAs (Decidable (s.turn ≠ none → _))
  | .executing _, .attempt | .executing _, .advance | .executing _, .started _
  | .executing _, .prompt | .executing _, .tool _ | .executing _, .activity _ _
  | .executing _, .mutate | .executing _, .finish | .executing _, .iterated _ _
  | .reviewing _, .attempt | .reviewing _, .advance | .reviewing _, .started _
  | .reviewing _, .prompt | .reviewing _, .mutate | .reviewing _, .finish
  | .reviewing _, .iterated _ _ => isTrue trivial

end TaskLoop

end Runtime
