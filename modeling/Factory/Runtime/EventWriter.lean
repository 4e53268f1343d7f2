import Factory.Coordinator.Domain
import Factory.Library.Assoc
import Factory.Library.Serde
import Factory.Runtime.EventText

namespace Runtime

open Coordinator (NewAttemptEvent)
open Serde (optionalValue)
open Json

inductive MessagePhase where
  | commentary
  | finalAnswer
  deriving DecidableEq

def MessagePhase.wireName : MessagePhase → String
  | .commentary => "commentary"
  | .finalAnswer => "final_answer"

inductive NotifiedStatus where
  | completed
  | interrupted
  | failed
  | inProgress
  deriving DecidableEq

def NotifiedStatus.wireName : NotifiedStatus → String
  | .completed => "completed"
  | .interrupted => "interrupted"
  | .failed => "failed"
  | .inProgress => "inProgress"

structure TokenUsage where
  totalTokens : Int
  inputTokens : Int
  cachedInputTokens : Int
  cacheWriteInputTokens : Int
  outputTokens : Int
  reasoningOutputTokens : Int
  deriving DecidableEq

inductive ThreadItem where
  | agentMessage (id text : String) (phase : Option MessagePhase)
  | reasoning (id : String) (summary : List String)
  | commandExecution (id command : String) (status : Value) (exitCode : Option Int)
  | mcpToolCall (id server tool : String) (status : Value)
  | dynamicToolCall (id tool : String) (status : Value)
  | collabAgentToolCall (id : String) (tool status : Value)
  | webSearch (id : String)
  | fileChange (id : String) (paths : List String) (status : Value)
  | contextCompaction (id : String)
  | other (id : String)
  deriving DecidableEq

def ThreadItem.id : ThreadItem → String
  | .agentMessage id _ _ | .reasoning id _ | .commandExecution id _ _ _ | .mcpToolCall id _ _ _
  | .dynamicToolCall id _ _ | .collabAgentToolCall id _ _ | .webSearch id | .fileChange id _ _
  | .contextCompaction id | .other id => id

inductive ServerNotification where
  | agentMessageDelta (thread turn item delta : String)
  | reasoningSummaryTextDelta (thread turn item : String) (summaryIndex : Int) (delta : String)
  | commandExecutionOutputDelta (thread turn item delta : String)
  | itemStarted (thread turn : String) (item : ThreadItem)
  | itemCompleted (thread turn : String) (item : ThreadItem)
  | rawResponseCompleted (thread turn responseId : String) (usage : Option TokenUsage)
  | turnStarted (thread turn : String) (status : NotifiedStatus)
  | turnCompleted (thread turn : String) (status : NotifiedStatus) (error : Option String)
  | turnPlanUpdated (thread turn : String) (explanation : Option String)
      (plan : List (String × Value))
  | fileChangePatchUpdated (thread turn item : String) (paths : List String)
  | mcpToolCallProgress (thread turn item message : String)
  | error (thread turn message : String) (willRetry : Bool)
  | modelRerouted (thread turn fromModel toModel : String)
  | contextCompacted (thread turn : String)
  | other
  deriving DecidableEq

structure ActiveTurn where
  thread : String
  turn : String
  deriving DecidableEq

structure StreamDelta where
  thread : String
  turn : String
  key : StreamKey
  text : String
  deriving DecidableEq

structure MappedEvent where
  thread : String
  turn : String
  kind : String
  payload : Value
  deriving DecidableEq

structure StreamedContent where
  agentMessages : List String
  reasoningSummaryParts : List (String × List Int)
  deriving DecidableEq

def StreamedContent.default : StreamedContent := ⟨[], []⟩

structure AttemptEventWriter where
  active : Option ActiveTurn
  text : TextCoalescer
  streamedContent : StreamedContent
  deriving DecidableEq

def integer (value : Int) : Value := .number (.int value)

def phaseValue (phase : Option MessagePhase) : Value :=
  optionalValue (fun phase => .string phase.wireName) phase

def targets (active : Option ActiveTurn) (thread turn : String) : Bool :=
  active.any (fun active => active.thread = thread ∧ active.turn = turn)

def AttemptEventWriter.correlate (payload : Value) (active : Option ActiveTurn) : Value :=
  let payload := match payload with
    | .object fields => Value.object fields
    | other => .object [("detail", other)]
  match active with
  | none => payload
  | some active =>
    (payload.set "threadId" (.string active.thread)).set "turnId" (.string active.turn)

def streamDelta : ServerNotification → Option StreamDelta
  | .agentMessageDelta thread turn item delta =>
    some ⟨thread, turn, ⟨"agent.message", item, none⟩, delta⟩
  | .reasoningSummaryTextDelta thread turn item summaryIndex delta =>
    some ⟨thread, turn, ⟨"reasoning.summary", item, some summaryIndex⟩, delta⟩
  | .commandExecutionOutputDelta thread turn item delta =>
    some ⟨thread, turn, ⟨"tool.output", item, none⟩, delta⟩
  | _ => none

def modelUsageEvent : ServerNotification → Option (MappedEvent × String)
  | .rawResponseCompleted thread turn responseId (some usage) =>
    some (⟨thread, turn, "model.usage",
      .object
        [("totalTokens", integer usage.totalTokens), ("inputTokens", integer usage.inputTokens),
          ("cachedInputTokens", integer usage.cachedInputTokens),
          ("cacheWriteInputTokens", integer usage.cacheWriteInputTokens),
          ("outputTokens", integer usage.outputTokens),
          ("reasoningOutputTokens", integer usage.reasoningOutputTokens)]⟩,
      "model.usage:" ++ responseId)
  | _ => none

def itemDetail (item : ThreadItem) (completed : Bool) : Option (String × Value) :=
  match item with
  | .agentMessage _ text phase =>
    (compact text).map fun text =>
      (if completed then "agent.message.completed" else "agent.message.started",
        .object [("text", .string text), ("phase", phaseValue phase)])
  | .reasoning _ summary =>
    let summary := summary.filterMap compact
    if summary.isEmpty then none
    else some
      (if completed then "reasoning.summary.completed" else "reasoning.summary.started",
        .object [("summary", .array (summary.map Value.string))])
  | .commandExecution _ command status exitCode =>
    some (if completed then "tool.completed" else "tool.started",
      .object
        [("type", .string "command"), ("message", .string (brief command)), ("status", status),
          ("exitCode", optionalValue integer exitCode)])
  | .mcpToolCall _ server tool status =>
    some (if completed then "tool.completed" else "tool.started",
      .object
        [("type", .string "mcp"), ("message", .string (server ++ "." ++ tool)),
          ("status", status)])
  | .dynamicToolCall _ tool status =>
    some (if completed then "tool.completed" else "tool.started",
      .object [("type", .string "dynamic"), ("message", .string tool), ("status", status)])
  | .collabAgentToolCall _ tool status =>
    some (if completed then "tool.completed" else "tool.started",
      .object [("type", .string "subagent"), ("tool", tool), ("status", status)])
  | .webSearch _ =>
    some (if completed then "tool.completed" else "tool.started",
      .object [("type", .string "webSearch")])
  | .fileChange _ paths status =>
    some (if completed then "file.completed" else "file.started",
      .object [("paths", .array (paths.map Value.string)), ("status", status)])
  | .contextCompaction _ =>
    some (if completed then "context.compaction.completed" else "context.compaction.started",
      .object [])
  | .other _ => none

def itemEvent (item : ThreadItem) (completed : Bool) : Option (String × Value) :=
  (itemDetail item completed).map fun detail =>
    (detail.1, detail.2.set "itemId" (.string item.id))

def mapEvent : ServerNotification → Option MappedEvent
  | .turnStarted thread turn status =>
    some ⟨thread, turn, "turn.started", .object [("status", .string status.wireName)]⟩
  | .turnCompleted thread turn status error =>
    some ⟨thread, turn, if status = .completed then "turn.completed" else "turn.error",
      .object [("status", .string status.wireName), ("message", optionalValue Value.string error)]⟩
  | .turnPlanUpdated thread turn explanation plan =>
    some ⟨thread, turn, "turn.plan",
      .object
        [("summary", optionalValue (fun text => .string (brief text)) (explanation.bind compact)),
          ("steps", .array (plan.map fun step =>
            .object [("step", .string (brief step.1)), ("status", step.2)]))]⟩
  | .itemStarted thread turn item =>
    (itemEvent item false).map fun event => ⟨thread, turn, event.1, event.2⟩
  | .fileChangePatchUpdated thread turn item paths =>
    some ⟨thread, turn, "file.updated",
      .object [("itemId", .string item), ("paths", .array (paths.map Value.string))]⟩
  | .mcpToolCallProgress thread turn item message =>
    some ⟨thread, turn, "tool.progress",
      .object [("itemId", .string item), ("message", .string (brief message))]⟩
  | .error thread turn message willRetry =>
    some ⟨thread, turn, if willRetry then "turn.warning" else "turn.error",
      .object [("message", .string (brief message)), ("willRetry", .bool willRetry)]⟩
  | .modelRerouted thread turn fromModel toModel =>
    some ⟨thread, turn, "turn.warning",
      .object [("message", .string ("model rerouted from " ++ fromModel ++ " to " ++ toModel))]⟩
  | .contextCompacted thread turn => some ⟨thread, turn, "context.compacted", .object []⟩
  | _ => none

namespace StreamedContent

def recordStreamedContent (key : StreamKey) (content : StreamedContent) : StreamedContent :=
  if key.kind = "agent.message" then
    { content with agentMessages := content.agentMessages.insert key.item }
  else
    match key.part with
    | some part =>
      if key.kind = "reasoning.summary" then
        { content with
          reasoningSummaryParts := Assoc.alter key.item
            (fun parts => (parts.getD []).insert part) content.reasoningSummaryParts }
      else content
    | none => content

def remainingSummary (streamed : List Int) (summary : List String) : List (String × Int) :=
  summary.zipIdx.filterMap fun part =>
    if (part.2 : Int) ∈ streamed then none else (compact part.1).map (·, (part.2 : Int))

def completedItemEvent (item : ThreadItem) (content : StreamedContent) :
    Option (String × Value) × StreamedContent :=
  match item with
  | .agentMessage id _ phase =>
    if id ∈ content.agentMessages then
      (some ("agent.message.completed",
        .object [("itemId", .string id), ("phase", phaseValue phase)]),
        { content with agentMessages := content.agentMessages.filter (· ≠ id) })
    else (itemEvent item true, content)
  | .reasoning id summary =>
    match Assoc.get id content.reasoningSummaryParts with
    | none => (itemEvent item true, content)
    | some streamed =>
      let remaining := remainingSummary streamed summary
      (some ("reasoning.summary.completed",
        .object
          [("itemId", .string id),
            ("summary", .array (remaining.map fun part => .string part.1)),
            ("summaryIndexes", .array (remaining.map fun part => integer part.2))]),
        { content with
          reasoningSummaryParts :=
            content.reasoningSummaryParts.filter (fun entry => entry.1 ≠ id) })
  | _ => (itemEvent item true, content)

end StreamedContent

namespace AttemptEventWriter

def new : AttemptEventWriter := ⟨none, .new, .default⟩

def activate (thread turn : String) (writer : AttemptEventWriter) : AttemptEventWriter :=
  { writer with active := some ⟨thread, turn⟩, streamedContent := .default }

def persistWithDeduplication (kind : String) (payload : Value) (deduplicationKey : Option String)
    (writer : AttemptEventWriter) : NewAttemptEvent :=
  ⟨kind, AttemptEventWriter.correlate payload writer.active, deduplicationKey⟩

def persist (kind : String) (payload : Value) (writer : AttemptEventWriter) : NewAttemptEvent :=
  writer.persistWithDeduplication kind payload none

def persistChunk (writer : AttemptEventWriter) (chunk : TextChunk) :
    NewAttemptEvent × AttemptEventWriter :=
  (writer.persist chunk.key.kind
    (.object
      [("itemId", .string chunk.key.item), ("partIndex", optionalValue integer chunk.key.part),
        ("text", .string chunk.text)]),
    { writer with
      streamedContent := writer.streamedContent.recordStreamedContent chunk.key })

def persistChunks : List TextChunk → AttemptEventWriter →
    List NewAttemptEvent × AttemptEventWriter
  | [], writer => ([], writer)
  | chunk :: rest, writer =>
    let (event, writer) := writer.persistChunk chunk
    let (events, writer) := persistChunks rest writer
    (event :: events, writer)

def flush (writer : AttemptEventWriter) : List NewAttemptEvent × AttemptEventWriter :=
  let (chunk, text) := writer.text.flush
  persistChunks chunk.toList { writer with text := text }

def emit (kind : String) (payload : Value) (writer : AttemptEventWriter) :
    List NewAttemptEvent × AttemptEventWriter :=
  let (events, writer) := writer.flush
  (events ++ [writer.persist kind payload], writer)

def observeDelta (delta : StreamDelta) (writer : AttemptEventWriter) :
    List NewAttemptEvent × AttemptEventWriter :=
  let (chunks, text) := writer.text.push delta.key delta.text
  persistChunks chunks { writer with text := text }

def observeCompleted (item : ThreadItem) (writer : AttemptEventWriter) :
    List NewAttemptEvent × AttemptEventWriter :=
  let (events, writer) := writer.flush
  let (completed, content) := writer.streamedContent.completedItemEvent item
  let writer := { writer with streamedContent := content }
  (events ++ (completed.map fun event => writer.persist event.1 event.2).toList, writer)

def observeUsage (usage : MappedEvent × String) (writer : AttemptEventWriter) :
    List NewAttemptEvent × AttemptEventWriter :=
  let (events, writer) := writer.flush
  (events ++ [writer.persistWithDeduplication usage.1.kind usage.1.payload (some usage.2)], writer)

def appends (notification : ServerNotification) (writer : AttemptEventWriter) :
    List NewAttemptEvent × AttemptEventWriter :=
  match streamDelta notification with
  | some delta =>
    if targets writer.active delta.thread delta.turn then writer.observeDelta delta
    else ([], writer)
  | none =>
    match notification with
    | .itemCompleted thread turn item =>
      if targets writer.active thread turn then writer.observeCompleted item else ([], writer)
    | notification =>
      match modelUsageEvent notification with
      | some usage =>
        if targets writer.active usage.1.thread usage.1.turn then writer.observeUsage usage
        else ([], writer)
      | none =>
        match mapEvent notification with
        | some event =>
          if targets writer.active event.thread event.turn then
            writer.emit event.kind event.payload
          else ([], writer)
        | none => ([], writer)

def perform {σ ε : Type} (append : NewAttemptEvent → σ → Except ε σ)
    (action : List NewAttemptEvent × AttemptEventWriter) (sink : σ) :
    Except ε (AttemptEventWriter × σ) := do
  let sink ← action.1.foldlM (fun sink event => append event sink) sink
  pure (action.2, sink)

def observe {σ ε : Type} (append : NewAttemptEvent → σ → Except ε σ)
    (notification : ServerNotification) (writer : AttemptEventWriter) (sink : σ) :
    Except ε (AttemptEventWriter × σ) :=
  perform append (writer.appends notification) sink

end AttemptEventWriter

end Runtime
