import Factory.Coordinator.StageOutput
import Factory.Runtime.CheckpointCodec
import Factory.Runtime.StageLoop

namespace Runtime

open Coordinator
open Serde (optionalValue)

inductive TurnEvent where
  | messageDelta (itemId text : String)
  | messageStarted (itemId text : String) (phase : Option String)
  | messageCompleted (itemId : String) (text phase : Option String)
  | activity (kind : String) (fields : List (String × Json.Value))

def journalKinds : List String :=
  ["agent.message", "agent.message.started", "agent.message.completed",
    "review_cycle.turn_completed", "stage.completed"]

namespace TurnEvent

def kind : TurnEvent → String
  | .messageDelta _ _ => "agent.message"
  | .messageStarted _ _ _ => "agent.message.started"
  | .messageCompleted _ _ _ => "agent.message.completed"
  | .activity kind _ => kind

def fields : TurnEvent → List (String × Json.Value)
  | .messageDelta itemId text =>
    [("itemId", .string itemId), ("partIndex", .null), ("text", .string text)]
  | .messageStarted itemId text phase =>
    [("text", .string text), ("phase", optionalValue .string phase), ("itemId", .string itemId)]
  | .messageCompleted itemId none phase =>
    [("itemId", .string itemId), ("phase", optionalValue .string phase)]
  | .messageCompleted itemId (some text) phase =>
    [("text", .string text), ("phase", optionalValue .string phase), ("itemId", .string itemId)]
  | .activity _ fields => fields

def permitted : TurnEvent → Bool
  | .activity kind _ => kind ∉ journalKinds
  | _ => true

end TurnEvent

def correlate (fields : List (String × Json.Value)) (active : TurnRef) : Json.Value :=
  ((Json.Value.object fields).set "threadId" (.string active.threadId)).set "turnId"
    (.string active.turnId)

inductive EntryBody where
  | observed (turn : TurnRef) (event : TurnEvent)
  | turnAccepted (stage : OperationKind) (role : StageTurnRole) (cycle : Nat) (turn : TurnRef)
  | stageCompleted (stage : OperationKind) (role : StageTurnRole) (cycle : Nat) (turn : TurnRef)
      (findings : List Json.Value)
  | noted (kind : String) (payload : Json.Value)

namespace EntryBody

def kind : EntryBody → String
  | .observed _ event => event.kind
  | .turnAccepted _ _ _ _ => "review_cycle.turn_completed"
  | .stageCompleted _ _ _ _ _ => "stage.completed"
  | .noted kind _ => kind

def payload : EntryBody → Json.Value
  | .observed turn event => correlate event.fields turn
  | .turnAccepted stage role cycle turn =>
    correlate
      [("stage", .string stage.asWireName), ("role", .string role.wireName),
        ("reviewCycle", Serde.unsigned cycle)]
      turn
  | .stageCompleted stage role cycle turn findings =>
    .object
      [("stage", .string stage.asWireName), ("role", .string role.wireName),
        ("reviewCycle", Serde.unsigned cycle), ("threadId", .string turn.threadId),
        ("turnId", .string turn.turnId), ("findings", .array findings)]
  | .noted _ payload => payload

end EntryBody

structure Entry where
  sequence : Nat
  operationId : Option OperationId
  attemptId : Option AttemptId
  body : EntryBody

def Entry.row (jobId : JobId) (entry : Entry) : JobEventRow :=
  ⟨entry.sequence, jobId, entry.operationId, entry.attemptId, entry.body.kind,
    entry.body.payload, none⟩

structure TurnCheckpoint where
  phase : StageCheckpointPhase
  role : StageTurnRole
  cycle : Nat
  turn : TurnRef
  deriving DecidableEq

inductive JournalPoint where
  | enter
  | evaluate (checkpoint : TurnCheckpoint) (mayRerun : Bool)
  | accepted (checkpoint : TurnCheckpoint)
  | run (role : StageTurnRole) (cycle : Nat)
  | start (role : StageTurnRole) (cycle : Nat)
  | await (checkpoint : TurnCheckpoint)
  | wait (checkpoint : TurnCheckpoint)
  | complete (checkpoint : TurnCheckpoint)

structure JournalWorker where
  attemptId : AttemptId
  operation : OperationRow
  point : JournalPoint

structure StartedTurn where
  turnId : String
  operationId : OperationId
  attemptId : AttemptId
  deriving DecidableEq

structure StageJournal where
  jobId : JobId
  operations : List OperationRow
  entries : List Entry
  nextSequence : Nat
  latest : Option TurnCheckpoint
  previous : Option TurnRef
  turns : List StartedTurn
  worker : Option JournalWorker
  accepted : List (OperationId × StageTurnRole)

inductive JournalStep where
  | create (operationIds : List OperationId)
  | continueJob (operationIds : List OperationId)
  | claim (attemptId : AttemptId)
  | stop
  | enter (approved : Bool)
  | evaluate (finished valid : Bool)
  | conclude (approve : Bool)
  | run
  | started (turn : TurnRef)
  | await
  | observe (event : TurnEvent)
  | finish
  | settle (findings : List Json.Value)
  | note (kind : String) (payload : Json.Value)
  | jobEvent (kind : String) (payload : Json.Value)
  | otherJobs (count : Nat)

def operationKind (operation : OperationRow) : OperationKind :=
  .atOrdinal operation.ordinal

def openOperation (operations : List OperationRow) : Option OperationRow :=
  operations.find? (fun operation => operation.status ≠ .succeeded)

namespace StageJournal

def start (jobId : JobId) : StageJournal := ⟨jobId, [], [], 1, none, none, [], none, []⟩

def log (s : StageJournal) : List JobEventRow := s.entries.map (Entry.row s.jobId)

def addOperations (s : StageJournal) (operationIds : List OperationId) : StageJournal :=
  if (s.operations.map (·.operationId) ++ operationIds).Nodup then
    { s with
      operations := s.operations ++ (operationIds.zipIdx s.operations.length).map (fun entry =>
        ⟨entry.1, s.jobId, entry.2, (OperationKind.atOrdinal entry.2).asWireName, .null, .ready, 3,
          0⟩) }
  else s

def append (s : StageJournal) (operationId : Option OperationId) (attemptId : Option AttemptId)
    (body : EntryBody) : StageJournal :=
  { s with
    entries := s.entries ++ [⟨s.nextSequence, operationId, attemptId, body⟩]
    nextSequence := s.nextSequence + 1 }

def emit (s : StageJournal) (worker : JournalWorker) (body : EntryBody) : StageJournal :=
  s.append (some worker.operation.operationId) (some worker.attemptId) body

def goto (s : StageJournal) (worker : JournalWorker) (point : JournalPoint) : StageJournal :=
  { s with worker := some { worker with point := point } }

def stop (s : StageJournal) : StageJournal := { s with worker := none }

def enter (s : StageJournal) (worker : JournalWorker) (approved : Bool) : StageJournal :=
  match s.latest with
  | some checkpoint => s.goto worker (.evaluate checkpoint (checkpoint.phase ≠ .completed))
  | none =>
    match operationKind worker.operation with
    | .remediate =>
      if approved then
        match s.previous with
        | none => s.stop
        | some turn => s.goto worker (.complete ⟨.completed, .review, 1, turn⟩)
      else s.goto worker (.run .remediation 1)
    | .review => s.goto worker (.run .review 0)
    | .plan | .execute | .iterate => s.goto worker (.run .stage 0)

def evaluate (s : StageJournal) (worker : JournalWorker) (checkpoint : TurnCheckpoint)
    (mayRerun finished valid : Bool) : StageJournal :=
  if checkpoint.phase = .awaitingTurn ∧ finished = false then
    s.goto worker (.run checkpoint.role checkpoint.cycle)
  else if valid then
    { s with accepted := (worker.operation.operationId, checkpoint.role) :: s.accepted }.goto worker
      (.accepted checkpoint)
  else if mayRerun then s.goto worker (.run checkpoint.role checkpoint.cycle)
  else s.stop

def emitReviewCycleCompleted (s : StageJournal) (worker : JournalWorker)
    (checkpoint : TurnCheckpoint) : StageJournal :=
  s.emit worker (.turnAccepted (operationKind worker.operation) checkpoint.role checkpoint.cycle
    checkpoint.turn)

def conclude (maxReviewCycles : UInt32) (s : StageJournal) (worker : JournalWorker)
    (checkpoint : TurnCheckpoint) (approve : Bool) : StageJournal :=
  match operationKind worker.operation with
  | .remediate =>
    match checkpoint.role with
    | .remediation =>
      if approve then s.goto worker (.complete checkpoint)
      else
        (s.emitReviewCycleCompleted worker checkpoint).goto worker
          (.run .review checkpoint.cycle)
    | .review =>
      if approve then s.goto worker (.complete checkpoint)
      else if maxReviewCycles.toNat ≤ checkpoint.cycle then
        (s.emitReviewCycleCompleted worker checkpoint).stop
      else
        (s.emitReviewCycleCompleted worker checkpoint).goto worker
          (.run .remediation (checkpoint.cycle + 1))
    | .stage => s.stop
  | .plan | .execute | .review | .iterate => s.goto worker (.complete checkpoint)

def startedKind : OperationKind → String
  | .remediate => "review_cycle.turn_started"
  | .plan | .execute | .review | .iterate => "stage.started"

def runTurn (s : StageJournal) (worker : JournalWorker) (role : StageTurnRole) (cycle : Nat) :
    StageJournal :=
  (s.emit worker (.noted (startedKind (operationKind worker.operation))
    (.object
      [("stage", .string (operationKind worker.operation).asWireName),
        ("role", .string role.wireName), ("reviewCycle", Serde.unsigned cycle)]))).goto worker
    (.start role cycle)

def startTurn (s : StageJournal) (worker : JournalWorker) (role : StageTurnRole) (cycle : Nat)
    (turn : TurnRef) : StageJournal :=
  if turn.turnId ∈ s.turns.map (·.turnId) then s
  else
    { s with
      turns := ⟨turn.turnId, worker.operation.operationId, worker.attemptId⟩ :: s.turns }.goto
      worker (.await ⟨.awaitingTurn, role, cycle, turn⟩)

def finishTurn (s : StageJournal) (worker : JournalWorker) (checkpoint : TurnCheckpoint) :
    StageJournal :=
  let completed := { checkpoint with phase := .turnCompleted }
  { s with latest := some completed }.goto worker (.evaluate completed false)

def settle (s : StageJournal) (worker : JournalWorker) (checkpoint : TurnCheckpoint)
    (findings : List Json.Value) : StageJournal :=
  let s := s.emit worker (.stageCompleted (operationKind worker.operation) checkpoint.role
    checkpoint.cycle checkpoint.turn findings)
  { s with
    operations := Table.updateWhere
      (fun operation => operation.operationId = worker.operation.operationId)
      ({ · with status := .succeeded }) s.operations
    latest := none
    previous := some checkpoint.turn
    worker := none }

def work (maxReviewCycles : UInt32) (s : StageJournal) (worker : JournalWorker) :
    JournalStep → StageJournal
  | .enter approved =>
    match worker.point with
    | .enter => s.enter worker approved
    | _ => s
  | .evaluate finished valid =>
    match worker.point with
    | .evaluate checkpoint mayRerun => s.evaluate worker checkpoint mayRerun finished valid
    | _ => s
  | .conclude approve =>
    match worker.point with
    | .accepted checkpoint => s.conclude maxReviewCycles worker checkpoint approve
    | _ => s
  | .run =>
    match worker.point with
    | .run role cycle => s.runTurn worker role cycle
    | _ => s
  | .started turn =>
    match worker.point with
    | .start role cycle => s.startTurn worker role cycle turn
    | _ => s
  | .await =>
    match worker.point with
    | .await checkpoint => { s with latest := some checkpoint }.goto worker (.wait checkpoint)
    | _ => s
  | .observe event =>
    match worker.point with
    | .wait checkpoint =>
      if event.permitted then s.emit worker (.observed checkpoint.turn event) else s
    | _ => s
  | .finish =>
    match worker.point with
    | .wait checkpoint => s.finishTurn worker checkpoint
    | _ => s
  | .settle findings =>
    match worker.point with
    | .complete checkpoint => s.settle worker checkpoint findings
    | _ => s
  | .note kind payload => if kind ∈ journalKinds then s else s.emit worker (.noted kind payload)
  | .stop => s.stop
  | .create _ | .continueJob _ | .claim _ | .jobEvent _ _ | .otherJobs _ => s

def step (maxReviewCycles : UInt32) (s : StageJournal) (input : JournalStep) : StageJournal :=
  match input, s.worker with
  | .create operationIds, _ =>
    if s.operations = [] ∧ operationIds.length = 4 then s.addOperations operationIds else s
  | .continueJob operationIds, none =>
    if s.operations ≠ [] ∧ (openOperation s.operations).isNone ∧ operationIds.length = 3 then
      s.addOperations operationIds
    else s
  | .claim attemptId, none =>
    match openOperation s.operations with
    | none => s
    | some operation => { s with worker := some ⟨attemptId, operation, .enter⟩ }
  | .jobEvent kind payload, _ => s.append none none (.noted kind payload)
  | .otherJobs count, _ => { s with nextSequence := s.nextSequence + count }
  | input, some worker => s.work maxReviewCycles worker input
  | _, none => s

def run (maxReviewCycles : UInt32) (s : StageJournal) (inputs : List JournalStep) : StageJournal :=
  Machine.run (step maxReviewCycles) s inputs

end StageJournal

end Runtime
