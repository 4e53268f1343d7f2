import Factory.Runtime.DetachedReview
import Factory.Runtime.Resume
import Factory.Library.Machine

namespace Runtime

open Extension

structure TurnRef where
  threadId : String
  turnId : String
  deriving DecidableEq

def StageCheckpoint.turn (checkpoint : StageCheckpoint) : TurnRef :=
  ⟨checkpoint.activeThreadId, checkpoint.turnId⟩

def recordedBy (turn : TurnRef) (report : FactoryReviewReport) : Prop :=
  report.recordedThreadId = some turn.threadId ∧ report.recordedTurnId = some turn.turnId

instance (turn : TurnRef) (report : FactoryReviewReport) : Decidable (recordedBy turn report) :=
  inferInstanceAs (Decidable (_ ∧ _))

structure ExecutorConfig where
  order : List String → List String
  maxReviewCycles : Nat

structure ReviewWorktree where
  snapshot : Option Bool
  mutated : Bool
  deriving DecidableEq

namespace ReviewWorktree

def recover (worktree : ReviewWorktree) : Bool × ReviewWorktree :=
  match worktree.snapshot with
  | none => (false, worktree)
  | some detected =>
    if detected || worktree.mutated then (true, ⟨some true, false⟩)
    else (false, { worktree with snapshot := none })

def acknowledge (worktree : ReviewWorktree) : Option ReviewWorktree :=
  match worktree.snapshot with
  | some true => some { worktree with snapshot := none }
  | _ => none

end ReviewWorktree

structure TurnPlan where
  role : StageTurnRole
  cycle : Nat
  baselines : FactoryStateBaselines
  deriving DecidableEq

def StageCheckpoint.plan (checkpoint : StageCheckpoint) : TurnPlan :=
  ⟨checkpoint.turnRole, checkpoint.reviewCycle, checkpoint.baselines⟩

structure RunningTurn where
  turn : TurnRef
  plan : TurnPlan
  completed : Bool
  deriving DecidableEq

inductive Next where
  | run (plan : TurnPlan)
  | complete (checkpoint : StageCheckpoint)
  | fail
  deriving DecidableEq

inductive Resumption where
  | enter
  | fail
  | stop
  deriving DecidableEq

inductive Point where
  | idle
  | recover
  | enter
  | evaluate (checkpoint : StageCheckpoint) (mayRerun : Bool)
  | rollback (next : Next)
  | commit (next : Next)
  | run (plan : TurnPlan)
  | capture (plan : TurnPlan)
  | prepare (plan : TurnPlan)
  | start (plan : TurnPlan)
  | await (plan : TurnPlan) (turn : TurnRef)
  | wait (plan : TurnPlan) (turn : TurnRef)
  | record (plan : TurnPlan) (turn : TurnRef)
  | compare (outcome : Option StageCheckpoint)
  | mutated (resumption : Resumption)
  | acknowledge (resumption : Resumption)
  | complete (checkpoint : StageCheckpoint)
  | cleanup
  | cleanupRollback
  deriving DecidableEq

def Point.completing : Point → Bool
  | .complete _ => true
  | _ => false

def Point.reverting : Point → Bool
  | .mutated _ | .acknowledge _ => true
  | _ => false

structure StageLoop where
  operation : OperationKind
  previous : StageCheckpoint
  latest : Option StageCheckpoint
  written : List StageCheckpoint
  thread : FactoryThreadState
  worktree : ReviewWorktree
  turn : Option RunningTurn
  started : List TurnRef
  finished : List TurnRef
  point : Point
  reviewer : Option TurnRef
  validated : List TurnRef
  clean : List TurnRef
  deriving DecidableEq

inductive LoopStep where
  | attempt
  | advance
  | started (turn : TurnRef)
  | fail
  | crash
  | prompt
  | tool (call : FactoryToolCall)
  | activity (activity : FactorySubagentActivity) (archive : Option Nat)
  | mutate
  | finish
  | iterated (previous : StageCheckpoint)
      (activities : List (FactorySubagentActivity × Option Nat))

namespace StageLoop

def start (previous : StageCheckpoint) (state : FactoryState) : StageLoop :=
  let previous := { previous with operation := .execute, phase := .completed }
  ⟨.review, previous, none, [previous],
    ⟨some { state with
      review := none, remediations := [], reviewHistory := [], reviewRecovery := none }, none⟩,
    ⟨none, false⟩, none, [], [], .idle, none, [], []⟩

def parentThreadId (s : StageLoop) : String :=
  (s.latest.getD s.previous).parentExecutionThreadId

def pendingReview (s : StageLoop) : List TurnRef :=
  if s.worktree.snapshot.isSome then s.reviewer.toList else []

def compareWorktree (s : StageLoop) : Bool × StageLoop :=
  let recovered := s.worktree.recover
  (recovered.1,
    { s with
      worktree := recovered.2
      clean := if recovered.1 then s.clean else s.pendingReview ++ s.clean })

def shutdown (s : StageLoop) : StageLoop :=
  { s with turn := none, thread := { s.thread with cached := none } }

def abort (s : StageLoop) : StageLoop := { s.shutdown with point := .cleanup }

def follow (s : StageLoop) : Next → StageLoop
  | .run plan => { s with point := .run plan }
  | .complete checkpoint => { s with point := .complete checkpoint }
  | .fail => s.abort

def resume (s : StageLoop) : Resumption → StageLoop
  | .enter => { s with point := .enter }
  | .fail => s.abort
  | .stop => { s with point := .idle }

def retract (s : StageLoop) (role : StageTurnRole) (next : Next) : StageLoop :=
  if role = .review then { s with point := .rollback next } else s.follow next

def turnError (s : StageLoop) (plan : TurnPlan) : StageLoop :=
  if plan.role = .review then { s with point := .compare none } else s.abort

def write (s : StageLoop) (checkpoint : StageCheckpoint) : StageLoop :=
  { s with latest := some checkpoint, written := checkpoint :: s.written }

def finalize (checkpoint : StageCheckpoint) : Next :=
  match finalCheckpoint checkpoint with
  | .ok completed => .complete completed
  | .error _ => .fail

def conclude (config : ExecutorConfig) (s : StageLoop) (checkpoint : StageCheckpoint) : Next :=
  match s.operation with
  | .remediate =>
    match s.thread.load.review with
    | none => .fail
    | some report =>
      match checkpoint.turnRole with
      | .remediation =>
        if report.verdict = .approve then finalize checkpoint
        else
          match ReviewBaseline.capture s.thread.load s.parentThreadId checkpoint.turnId with
          | .error _ => .fail
          | .ok baseline =>
            .run ⟨.review, checkpoint.reviewCycle, reviewBaselines s.thread.load baseline⟩
      | .review =>
        if report.verdict = .approve then finalize checkpoint
        else if config.maxReviewCycles ≤ checkpoint.reviewCycle then .fail
        else
          .run ⟨.remediation, checkpoint.reviewCycle + 1,
            ⟨s.thread.load.revision, none, none⟩⟩
      | .stage => .fail
  | _ => finalize checkpoint

def accept (config : ExecutorConfig) (s : StageLoop) (checkpoint : StageCheckpoint) : StageLoop :=
  let next := s.conclude config checkpoint
  if checkpoint.turnRole = .review then
    { s with validated := checkpoint.turn :: s.validated, point := .commit next }
  else s.follow next

def evaluate (config : ExecutorConfig) (s : StageLoop) (checkpoint : StageCheckpoint)
    (mayRerun : Bool) : StageLoop :=
  if checkpoint.phase = .awaitingTurn ∧ checkpoint.turn ∉ s.finished then
    s.retract checkpoint.turnRole (.run checkpoint.plan)
  else
    match validateCheckpointState config.order s.thread.load checkpoint with
    | .error _ =>
      s.retract checkpoint.turnRole (if mayRerun then .run checkpoint.plan else .fail)
    | .ok _ => s.accept config checkpoint

def completeFromReview (config : ExecutorConfig) (s : StageLoop) : StageLoop :=
  match StageCheckpoint.completed .remediate s.previous.lineage .review 1 s.previous.baselines with
  | .error _ => s.abort
  | .ok completed =>
    match validateCheckpointState config.order s.thread.load completed with
    | .error _ => s.abort
    | .ok _ =>
      { s with
        validated := s.previous.turn :: s.validated
        point := .complete completed }

def approved (config : ExecutorConfig) (state : FactoryState) : Bool :=
  (OperationKind.remediate.validate config.order state none).isOk &&
    state.review.any (fun report => report.verdict = .approve)

def enter (config : ExecutorConfig) (s : StageLoop) : StageLoop :=
  match s.latest with
  | some checkpoint =>
    { s with point := .evaluate checkpoint (checkpoint.phase ≠ .completed) }
  | none =>
    match s.operation with
    | .remediate =>
      if approved config s.thread.load then s.completeFromReview config
      else { s with point := .run ⟨.remediation, 1, ⟨s.thread.load.revision, none, none⟩⟩ }
    | _ =>
      match ReviewBaseline.capture s.thread.load s.parentThreadId s.previous.turnId with
      | .error _ => s.abort
      | .ok baseline =>
        { s with point := .run ⟨.review, 0, reviewBaselines s.thread.load baseline⟩ }

def checkpointOf (s : StageLoop) (phase : StageCheckpointPhase) (plan : TurnPlan)
    (turn : TurnRef) : Except StageCheckpointError StageCheckpoint := do
  let lineage ← StageLineage.new s.parentThreadId turn.threadId turn.turnId
  StageCheckpoint.new s.operation lineage phase plan.role plan.cycle plan.baselines

def compareTurn (s : StageLoop) (outcome : Option StageCheckpoint) : StageLoop :=
  if s.worktree.snapshot = none then s.abort
  else
    let compared := s.compareWorktree
    if compared.1 then { compared.2 with point := .mutated .fail }
    else
      match outcome with
      | none => { compared.2 with point := .rollback .fail }
      | some checkpoint => { compared.2 with point := .evaluate checkpoint false }

def captureSnapshot (s : StageLoop) (plan : TurnPlan) : StageLoop :=
  let compared := s.compareWorktree
  if compared.1 then compared.2.abort
  else
    { compared.2 with worktree := ⟨some false, false⟩, reviewer := none, point := .prepare plan }

def settle (s : StageLoop) (checkpoint : StageCheckpoint) : StageLoop :=
  { s.shutdown with
    operation := if s.operation = .review then .remediate else .iterate
    previous := checkpoint
    latest := none
    written := checkpoint :: s.written
    point := .idle }

def advance (config : ExecutorConfig) (s : StageLoop) : StageLoop :=
  match s.point with
  | .idle => s
  | .recover =>
    let compared := s.compareWorktree
    { compared.2 with point := if compared.1 then .mutated .enter else .enter }
  | .enter => s.enter config
  | .evaluate checkpoint mayRerun => s.evaluate config checkpoint mayRerun
  | .rollback next => { s with thread := rollbackDetachedReview s.thread }.follow next
  | .commit next => { s with thread := commitDetachedReview s.thread }.follow next
  | .run plan =>
    if plan.role = .review then
      { s with thread := rollbackDetachedReview s.thread, point := .capture plan }
    else { s with point := .start plan }
  | .capture plan => s.captureSnapshot plan
  | .prepare plan =>
    { s with
      thread := s.thread.save s.thread.load.prepareReviewRecovery
      point := .start plan }
  | .start _ => s
  | .await plan turn =>
    match s.checkpointOf .awaitingTurn plan turn with
    | .error _ => s.turnError plan
    | .ok checkpoint => { s.write checkpoint with point := .wait plan turn }
  | .wait plan turn =>
    if s.turn.any (·.completed) then { s with turn := none, point := .record plan turn } else s
  | .record plan turn =>
    match s.checkpointOf .turnCompleted plan turn with
    | .error _ => s.turnError plan
    | .ok checkpoint =>
      { s.write checkpoint with
        point := if plan.role = .review then .compare (some checkpoint)
          else .evaluate checkpoint false }
  | .compare outcome => s.compareTurn outcome
  | .mutated resumption =>
    { s with thread := rollbackDetachedReview s.thread, point := .acknowledge resumption }
  | .acknowledge resumption =>
    match s.worktree.acknowledge with
    | none => s.resume (if resumption = .stop then .stop else .fail)
    | some worktree => { s with worktree := worktree }.resume resumption
  | .complete checkpoint => s.settle checkpoint
  | .cleanup =>
    let compared := s.compareWorktree
    { compared.2 with point := if compared.1 then .mutated .stop else .cleanupRollback }
  | .cleanupRollback => { s with thread := rollbackDetachedReview s.thread, point := .idle }

def failed (s : StageLoop) : StageLoop :=
  match s.point with
  | .idle => s
  | .start plan | .await plan _ | .wait plan _ | .record plan _ => s.turnError plan
  | .cleanup => { s with point := .cleanupRollback }
  | .cleanupRollback | .mutated .stop | .acknowledge .stop => { s with point := .idle }
  | _ => s.abort

def beginTurn (s : StageLoop) (turn : TurnRef) : StageLoop :=
  match s.point with
  | .start plan =>
    if plan.role = .review ∧ plan.baselines.expectedReviewParentTurnId = none then
      s.turnError plan
    else if turn ∈ s.started then s
    else
      { s with
        turn := some ⟨turn, plan, false⟩
        started := turn :: s.started
        reviewer := if plan.role = .review then some turn else s.reviewer
        point := .await plan turn }
  | _ => s

def mayCall (s : StageLoop) (running : RunningTurn) (call : FactoryToolCall) : Bool :=
  match running.plan.role with
  | .review =>
    match call with
    | .review provenance _ =>
      running.plan.baselines.expectedReviewParentTurnId.any (fun parentTurnId =>
        provenance = detachedProvenance running.turn.turnId running.turn.threadId
          ⟨s.parentThreadId, parentTurnId⟩)
    | _ => false
  | .stage | .remediation => call.stage = OperationKind.remediate.turnStage

def duringTurn (s : StageLoop) (f : RunningTurn → FactoryThreadState → FactoryThreadState) :
    StageLoop :=
  match s.turn with
  | none => s
  | some running => if running.completed then s else { s with thread := f running s.thread }

def upsertActivities (activities : List (FactorySubagentActivity × Option Nat))
    (thread : FactoryThreadState) : FactoryThreadState :=
  activities.foldl (fun thread entry => thread.upsertActivity entry.1 entry.2) thread

def step (config : ExecutorConfig) (s : StageLoop) : LoopStep → StageLoop
  | .attempt =>
    if s.point = .idle ∧ s.operation ≠ .iterate then { s with point := .recover } else s
  | .advance => s.advance config
  | .started turn => s.beginTurn turn
  | .fail => s.failed
  | .crash => { s.shutdown with point := .idle }
  | .prompt => s.duringTurn (fun _ thread => thread.loadIfNeeded)
  | .tool call =>
    s.duringTurn (fun running thread =>
      if s.mayCall running call then thread.call call else thread)
  | .activity activity archive =>
    s.duringTurn (fun _ thread => thread.upsertActivity activity archive)
  | .mutate => { s with worktree := { s.worktree with mutated := true } }
  | .finish =>
    match s.turn with
    | none => s
    | some running =>
      { s with
        turn := some { running with completed := true }
        finished := running.turn :: s.finished }
  | .iterated previous activities =>
    if s.point = .idle ∧ s.operation = .iterate ∧ previous.phase = .completed then
      { s with
        operation := .review
        previous := previous
        latest := none
        written := previous :: s.written
        thread := { upsertActivities activities s.thread with cached := none } }
    else s

def Observed (s : StageLoop) (turn : TurnRef) : Prop :=
  turn ∈ s.finished ∨
    ∃ checkpoint ∈ s.written, checkpoint.phase ≠ .awaitingTurn ∧ checkpoint.turn = turn

def ApprovedByReview (s : StageLoop) : Prop :=
  ∃ report ∈ s.thread.load.review, report.verdict = .approve ∧
    ∃ turn ∈ s.clean, recordedBy turn report ∧ turn ∈ s.validated ∧ s.Observed turn

def Provenance (s : StageLoop) : LoopStep → Prop
  | .advance => s.point.completing = true → s.operation = .remediate → s.ApprovedByReview
  | _ => True

def KeepsRecovery (s : StageLoop) : Point → Prop
  | .evaluate checkpoint _ => checkpoint.turnRole = .remediation →
      ∀ report ∈ s.thread.load.review, report.verdict ≠ .approve
  | .mutated _ => s.thread.load.reviewRecovery.isSome ∨
      ∀ turn ∈ s.reviewer, ∀ report ∈ s.thread.load.review, ¬ recordedBy turn report
  | _ => True

def Disciplined (s : StageLoop) : LoopStep → Prop
  | .advance => s.KeepsRecovery s.point
  | .tool _ | .activity _ _ => s.point.reverting = false
  | _ => True

instance (s : StageLoop) (turn : TurnRef) : Decidable (s.Observed turn) :=
  inferInstanceAs (Decidable (_ ∨ _))

instance (s : StageLoop) : Decidable s.ApprovedByReview :=
  inferInstanceAs (Decidable (∃ report ∈ s.thread.load.review, _))

instance (s : StageLoop) : ∀ input, Decidable (s.Provenance input)
  | .advance => inferInstanceAs (Decidable (s.point.completing = true → _))
  | .attempt | .started _ | .fail | .crash | .prompt | .tool _ | .activity _ _ | .mutate | .finish
  | .iterated _ _ => isTrue trivial

instance (s : StageLoop) : ∀ point, Decidable (s.KeepsRecovery point)
  | .evaluate checkpoint _ => inferInstanceAs (Decidable (checkpoint.turnRole = .remediation → _))
  | .mutated _ => inferInstanceAs (Decidable (_ ∨ _))
  | .idle | .recover | .enter | .rollback _ | .commit _ | .run _ | .capture _ | .prepare _
  | .start _ | .await _ _ | .wait _ _ | .record _ _ | .compare _ | .acknowledge _ | .complete _
  | .cleanup | .cleanupRollback => isTrue trivial

instance (s : StageLoop) : ∀ input, Decidable (s.Disciplined input)
  | .advance => inferInstanceAs (Decidable (s.KeepsRecovery s.point))
  | .tool _ | .activity _ _ => inferInstanceAs (Decidable (s.point.reverting = false))
  | .attempt | .started _ | .fail | .crash | .prompt | .mutate | .finish | .iterated _ _ =>
    isTrue trivial

end StageLoop

end Runtime
