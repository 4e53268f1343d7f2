import Factory.Runtime.LineCompaction
import Factory.Runtime.StreamedOutput

namespace Runtime

open Coordinator Json List ServerNotification StreamedContent AttemptEventWriter

def TurnEvent.spoken : TurnEvent → Bool
  | .messageDelta _ _ | .messageCompleted _ _ _ => true
  | _ => false

structure Emits (turn : TurnRef) (events : List NewAttemptEvent) (log : List TurnEvent) :
    Prop where
  messages :
    events.filter (fun event => isMessageKind event.kind) = log.map (TurnEvent.appended turn)
  spoken : ∀ event ∈ log, event.spoken = true

def ServerNotification.StartsBlank (active : ActiveTurn) : ServerNotification → Prop
  | .itemStarted thread turn (.agentMessage _ text _) =>
    targets (some active) thread turn = true → Text.isBlank text = true
  | _ => True

structure Writes (active : ActiveTurn) (writer : AttemptEventWriter)
    (inputs : List MessageInput) (log : List TurnEvent) : Prop where
  active : writer.active = some active
  kept : StreamKept inputs log writer.text.pending writer.streamedContent.agentMessages

section Emission

variable {turn : TurnRef} {events more : List NewAttemptEvent} {log added : List TurnEvent}

theorem emits_nothing : Emits turn [] [] := ⟨rfl,nofun⟩

theorem Emits.append (h : Emits turn events log) (later : Emits turn more added) :
    Emits turn (events ++ more) (log ++ added) where
  messages := by rw [filter_append,map_append,h.messages,later.messages]
  spoken := by
    intro event member
    rcases mem_append.mp member with old | new
    · exact h.spoken event old
    · exact later.spoken event new

theorem emits_silent {event : NewAttemptEvent} (silent : isMessageKind event.kind = false) :
    Emits turn [event] [] :=
  ⟨by simp [silent],nofun⟩

theorem emits_message {event : TurnEvent} (message : isMessageKind event.kind = true)
    (spoken : event.spoken = true) : Emits turn [event.appended turn] [event] where
  messages := by simp [TurnEvent.appended,message]
  spoken := by
    intro other member
    cases mem_singleton.mp member
    exact spoken

end Emission

section Chunks

theorem message_kinds : isMessageKind "agent.message" = true ∧
    isMessageKind "agent.message.completed" = true := by
  decide

variable {active : ActiveTurn} {writer : AttemptEventWriter} {chunk : TextChunk}

theorem persistChunk_emits (activated : writer.active = some active) (known : chunk.key.Known) :
    Emits active.ref [(writer.persistChunk chunk).1] (chunkLog chunk) := by
  rcases known with silent | own
  · have foreign : ¬ chunk.key = agentKey chunk.key.item := by
      intro own
      rw [own] at silent
      exact absurd (silent.symm.trans message_kinds.1) Bool.false_ne_true
    rw [chunkLog,if_neg foreign]
    exact emits_silent silent
  · have event : (writer.persistChunk chunk).1 =
        TurnEvent.appended active.ref (.messageDelta chunk.key.item chunk.text) := by
      unfold persistChunk persist
        persistWithDeduplication
      rw [activated,own]
      rfl
    rw [chunkLog,if_pos own,event]
    exact emits_message message_kinds.1 rfl

theorem mem_recordStreamedContent {item : String} {key : StreamKey} {content : StreamedContent}
    (known : key.Known) :
    item ∈ (content.recordStreamedContent key).agentMessages ↔
      item ∈ content.agentMessages ∨ key = agentKey item := by
  unfold recordStreamedContent
  split
  · next kind =>
    have own : key = agentKey key.item := by
      rcases known with silent | own
      · rw [kind] at silent
        exact absurd silent (by decide)
      · exact own
    have named : key = agentKey item ↔ item = key.item := by
      constructor
      · intro same
        rw [same]
        rfl
      · intro same
        rw [same]
        exact own
    rw [mem_insert_iff,named,or_comm]
  · next kind =>
    have foreign : ¬ key = agentKey item := fun same => kind (by rw [same]; rfl)
    rw [or_iff_left foreign]
    split
    · split <;> exact Iff.rfl
    · exact Iff.rfl

structure Persisted (active : ActiveTurn) (chunks : List TextChunk) (writer : AttemptEventWriter)
    (result : List NewAttemptEvent × AttemptEventWriter) : Prop where
  activated : result.2.active = some active
  text : result.2.text = writer.text
  emits : Emits active.ref result.1 (chunks.flatMap chunkLog)
  members : ∀ item, item ∈ result.2.streamedContent.agentMessages ↔
    item ∈ writer.streamedContent.agentMessages ∨ ∃ c ∈ chunks, c.key = agentKey item

theorem persistChunks_persisted {chunks : List TextChunk} (activated : writer.active = some active)
    (known : ∀ c ∈ chunks, c.key.Known) :
    Persisted active chunks writer (persistChunks chunks writer) := by
  induction chunks generalizing writer with
  | nil => exact ⟨activated,rfl,emits_nothing,fun item => by simp [persistChunks]⟩
  | cons chunk rest ih =>
    have own := known chunk mem_cons_self
    have later := @ih (writer.persistChunk chunk).2 activated
      fun c member => known c (mem_cons_of_mem _ member)
    refine ⟨later.activated,later.text,?_,?_⟩
    · rw [flatMap_cons]
      exact (persistChunk_emits activated own).append later.emits
    · intro item
      refine (later.members item).trans ?_
      rw [exists_mem_cons_iff]
      have recorded := @mem_recordStreamedContent item chunk.key writer.streamedContent own
      simp only [persistChunk,recorded,or_assoc]

end Chunks

namespace Writes

variable {active : ActiveTurn} {writer : AttemptEventWriter} {inputs : List MessageInput}
  {log : List TurnEvent}

def Continues (active : ActiveTurn) (inputs added : List MessageInput) (log : List TurnEvent)
    (result : List NewAttemptEvent × AttemptEventWriter) : Prop :=
  ∃ new, Emits active.ref result.1 new ∧ Writes active result.2 (inputs ++ added) (log ++ new)

variable {usage : MappedEvent × String} {delta : StreamDelta} {notification : ServerNotification}

def deltaInput (delta : StreamDelta) : List MessageInput :=
  if delta.key = agentKey delta.key.item then [.delta delta.key.item delta.text] else []

theorem deltaInput_chars (item : String) (delta : StreamDelta) :
    inputChars item (deltaInput delta) =
      if delta.key = agentKey item then delta.text.toList else [] := by
  by_cases hit : delta.key = agentKey item
  · have own : delta.key.item = item := congrArg StreamKey.item hit
    rw [if_pos hit,deltaInput,own,if_pos hit]
    simp [inputChars,MessageInput.chars]
  · rw [if_neg hit,deltaInput]
    split
    · next own =>
      have other : delta.key.item ≠ item := fun same => hit (same ▸ own)
      simp [inputChars,MessageInput.chars,other]
    · rfl

theorem itemEvent_silent {item : ThreadItem} {completed : Bool} {event : String × Value}
    (other : ∀ id text phase, item ≠ .agentMessage id text phase)
    (h : itemEvent item completed = some event) : isMessageKind event.1 = false := by
  obtain ⟨detail,found,rfl⟩ := Option.map_eq_some_iff.mp h
  cases item with
  | agentMessage id text phase => exact absurd rfl (other id text phase)
  | reasoning id summary =>
    simp only [itemDetail] at found
    split at found
    · cases found
    · cases found
      cases completed <;> simp [isMessageKind]
  | commandExecution | mcpToolCall | dynamicToolCall | collabAgentToolCall | webSearch
  | fileChange | contextCompaction =>
    cases found
    cases completed <;> simp [isMessageKind]
  | other id => cases found

theorem completed_other {content : StreamedContent} {item : ThreadItem}
    (other : ∀ id text phase, item ≠ .agentMessage id text phase) :
    (content.completedItemEvent item).2.agentMessages = content.agentMessages ∧
      ∀ event, (content.completedItemEvent item).1 = some event →
        isMessageKind event.1 = false := by
  cases item with
  | agentMessage id text phase => exact absurd rfl (other id text phase)
  | reasoning id summary =>
    simp only [completedItemEvent]
    split
    · exact ⟨rfl,fun event => itemEvent_silent other⟩
    · refine ⟨rfl,fun event h => ?_⟩
      cases h
      simp [isMessageKind]
  | commandExecution | mcpToolCall | dynamicToolCall | collabAgentToolCall | webSearch
  | fileChange | contextCompaction | other =>
    exact ⟨rfl,fun event => @itemEvent_silent _ true _ other⟩

theorem completed_message {content : StreamedContent} (activated : writer.active = some active)
    (id text : String) (phase : Option MessagePhase) :
    Emits active.ref
        (((content.completedItemEvent (.agentMessage id text phase)).1.map fun event =>
          writer.persist event.1 event.2).toList)
        (completionLog id phase text content.agentMessages) ∧
      (content.completedItemEvent (.agentMessage id text phase)).2.agentMessages =
        content.agentMessages.filter (· ≠ id) := by
  have phased : phaseValue phase =
      Serde.optionalValue .string (phase.map MessagePhase.wireName) := by
    cases phase <;> rfl
  by_cases streamed : id ∈ content.agentMessages
  · simp only [completedItemEvent,if_pos streamed,completionLog]
    refine ⟨?_,trivial⟩
    have event : writer.persist "agent.message.completed"
        (.object [("itemId", .string id),("phase", phaseValue phase)]) =
        TurnEvent.appended active.ref
          (.messageCompleted id none (phase.map MessagePhase.wireName)) := by
      rw [phased,persist,persistWithDeduplication,
        activated]
      rfl
    rw [Option.map_some,event]
    exact emits_message message_kinds.2 rfl
  · simp only [completedItemEvent,if_neg streamed,completionLog]
    refine ⟨?_,(filter_eq_self.mpr fun other member => ?_).symm⟩
    · cases compacted : compact text with
      | none =>
        simp only [itemEvent,itemDetail,compacted,Option.map_none]
        exact emits_nothing
      | some out =>
        have event : writer.persist "agent.message.completed"
            ((Value.object [("text", .string out),("phase", phaseValue phase)]).set "itemId"
              (.string id)) =
            TurnEvent.appended active.ref
              (.messageCompleted id (some out) (phase.map MessagePhase.wireName)) := by
          rw [phased,persist,persistWithDeduplication,
            activated]
          rfl
        simp only [itemEvent,itemDetail,compacted,Option.map_some,if_true]
        rw [ThreadItem.id,event]
        exact emits_message message_kinds.2 rfl
    · exact decide_eq_true fun same => streamed (same ▸ member)

theorem usage_silent (h : modelUsageEvent notification = some usage) :
    isMessageKind usage.1.kind = false := by
  unfold modelUsageEvent at h
  split at h
  · cases h
    simp [isMessageKind]
  · cases h

theorem mapEvent_silent {event : MappedEvent} (h : mapEvent notification = some event)
    (targeted : targets (some active) event.thread event.turn = true)
    (blank : notification.StartsBlank active) : isMessageKind event.kind = false := by
  unfold mapEvent at h
  split at h
  case h_2 =>
    cases h
    simp only
    split <;> simp [isMessageKind]
  case h_4 thread turn item =>
    obtain ⟨mapped,found,rfl⟩ := Option.map_eq_some_iff.mp h
    cases item with
    | agentMessage id text phase =>
      have compacted := compact_blank (blank targeted)
      simp [itemEvent,itemDetail,compacted] at found
    | reasoning | commandExecution | mcpToolCall | dynamicToolCall | collabAgentToolCall
    | webSearch | fileChange | contextCompaction | other =>
      exact itemEvent_silent (by simp) found
  case h_7 =>
    cases h
    simp only
    split <;> simp [isMessageKind]
  case h_10 => cases h
  all_goals
    cases h
    simp [isMessageKind]

theorem delta_known (h : streamDelta notification = some delta) : delta.key.Known := by
  unfold streamDelta at h
  split at h
  · cases h
    exact .inr rfl
  · cases h
    exact .inl (by simp [isMessageKind])
  · cases h
    exact .inl (by simp [isMessageKind])
  · cases h

theorem delta_input (h : streamDelta notification = some delta) :
    (notification.input active).toList =
      if targets (some active) delta.thread delta.turn then deltaInput delta else [] := by
  unfold streamDelta at h
  split at h
  · cases h
    simp only [input]
    split
    · simp [deltaInput,agentKey]
    · rfl
  · cases h
    simp [input,deltaInput,agentKey]
  · cases h
    simp [input,deltaInput,agentKey]
  · cases h

section Writing

variable (h : Writes active writer inputs log)

include h

theorem unchanged :
    Continues active inputs [] log ([], writer) := by
  refine ⟨[],emits_nothing,?_⟩
  rwa [append_nil,append_nil]

theorem flush :
    ∃ new, Emits active.ref writer.flush.1 new ∧
      Writes active writer.flush.2 inputs (log ++ new) ∧ writer.flush.2.text.pending = none := by
  have known : ∀ c ∈ writer.text.flush.1.toList, c.key.Known := fun c member =>
    h.kept.known c (flush_mem member).1
  have persisted := @persistChunks_persisted active
    { writer with text := writer.text.flush.2 } writer.text.flush.1.toList h.active known
  have cleared : writer.flush.2.text.pending = none := by
    have text := persisted.text
    exact congrArg TextCoalescer.pending text
  refine ⟨writer.text.flush.1.toList.flatMap chunkLog,persisted.emits,⟨persisted.activated,?_⟩,
    cleared⟩
  rw [cleared]
  have kept := @StreamKept.persist inputs [] log _ none _ _ _ h.kept
    (fun item => by
      rw [flush_balance item writer.text]
      simp [inputChars,pendingChars])
    (fun c member => (flush_mem member).2) nofun persisted.members
    (fun _ member => absurd member not_mem_nil)
    (fun _ member => absurd member not_mem_nil)
  rwa [append_nil] at kept

theorem emit {kind : String} (payload : Value) (silent : isMessageKind kind = false) :
    Continues active inputs [] log (writer.emit kind payload) := by
  obtain ⟨new,emitted,written,-⟩ := h.flush
  have tail : Emits active.ref [writer.flush.2.persist kind payload] [] := emits_silent silent
  have whole := emitted.append tail
  rw [append_nil] at whole
  refine ⟨new,whole,?_⟩
  rw [append_nil]
  exact written

theorem observeUsage (silent : isMessageKind usage.1.kind = false) :
    Continues active inputs [] log (writer.observeUsage usage) := by
  obtain ⟨new,emitted,written,-⟩ := h.flush
  have tail : Emits active.ref
      [writer.flush.2.persistWithDeduplication usage.1.kind usage.1.payload (some usage.2)] [] :=
    emits_silent silent
  have whole := emitted.append tail
  rw [append_nil] at whole
  refine ⟨new,whole,?_⟩
  rw [append_nil]
  exact written

theorem observeDelta (known : delta.key.Known)
    (orderly : ∀ i ∈ deltaInput delta, ¬ Completed i.item inputs) :
    Continues active inputs (deltaInput delta) log (writer.observeDelta delta) := by
  have chunks_known : ∀ c ∈ (writer.text.push delta.key delta.text).1, c.key.Known := by
    intro c member
    rcases (push_mem member).1 with pending | own
    · exact h.kept.known c pending
    · rw [own]
      exact known
  have persisted := @persistChunks_persisted active
    { writer with text := (writer.text.push delta.key delta.text).2 }
    (writer.text.push delta.key delta.text).1 h.active chunks_known
  refine ⟨(writer.text.push delta.key delta.text).1.flatMap chunkLog,persisted.emits,
    persisted.activated,?_⟩
  have pending : (writer.observeDelta delta).2.text.pending =
      (writer.text.push delta.key delta.text).2.pending :=
    congrArg TextCoalescer.pending persisted.text
  rw [pending]
  refine h.kept.persist ?_ (fun c member => (push_mem member).2) ?_ persisted.members ?_ orderly
  · intro item
    rw [deltaInput_chars]
    exact push_balance item delta.key delta.text writer.text
  · intro c held
    cases Option.mem_some_iff.mp held
    exact known
  · intro i member
    unfold deltaInput at member
    split at member
    · cases mem_singleton.mp member
      rfl
    · cases member

theorem observeCompleted_other {item : ThreadItem}
    (other : ∀ id text phase, item ≠ .agentMessage id text phase) :
    Continues active inputs [] log (writer.observeCompleted item) := by
  obtain ⟨new,emitted,written,-⟩ := h.flush
  have tail : Emits active.ref
      (((writer.flush.2.streamedContent.completedItemEvent item).1.map fun event =>
        persist event.1 event.2 { writer.flush.2 with
          streamedContent := (writer.flush.2.streamedContent.completedItemEvent item).2 }).toList)
      [] := by
    cases found : (writer.flush.2.streamedContent.completedItemEvent item).1 with
    | none => exact emits_nothing
    | some event => exact emits_silent ((completed_other other).2 event found)
  have whole := emitted.append tail
  rw [append_nil] at whole
  refine ⟨new,whole,written.active,?_⟩
  rw [append_nil]
  have kept := written.kept
  rwa [← (@completed_other writer.flush.2.streamedContent item other).1] at kept

theorem observeCompleted_message {id : String} (fresh : ¬ Completed id inputs) (text : String)
    (phase : Option MessagePhase) :
    Continues active inputs [.completed id phase text] log
      (writer.observeCompleted (.agentMessage id text phase)) := by
  obtain ⟨new,emitted,written,cleared⟩ := h.flush
  obtain ⟨tail,marked⟩ := @completed_message active
    { writer.flush.2 with
      streamedContent :=
        (writer.flush.2.streamedContent.completedItemEvent (.agentMessage id text phase)).2 }
    writer.flush.2.streamedContent written.active id text phase
  refine ⟨new ++ completionLog id phase text writer.flush.2.streamedContent.agentMessages,
    emitted.append tail,written.active,?_⟩
  have kept := written.kept
  rw [cleared] at kept
  have completed := kept.complete fresh phase text
  rw [← marked,append_assoc] at completed
  have pending : (writer.observeCompleted (.agentMessage id text phase)).2.text.pending = none :=
    cleared
  rw [pending]
  exact completed

theorem appends (blank : notification.StartsBlank active)
    (orderly : ∀ i ∈ notification.input active, ¬ Completed i.item inputs) :
    Continues active inputs (notification.input active).toList log
      (writer.appends notification) := by
  unfold AttemptEventWriter.appends
  rw [h.active]
  split
  · next delta found =>
    rw [delta_input found]
    split
    · next targeted =>
      refine h.observeDelta (delta_known found) fun i member => orderly i ?_
      refine Option.mem_toList.mp ?_
      rw [delta_input found,if_pos targeted]
      exact member
    · exact h.unchanged
  · next plain =>
    split
    · next thread turn item =>
      split
      · next targeted =>
        cases item with
        | agentMessage id text phase =>
          have read : (itemCompleted thread turn
              (.agentMessage id text phase)).input active = some (.completed id phase text) :=
            if_pos targeted
          rw [read]
          exact h.observeCompleted_message (orderly _ (by rw [read]; rfl)) text phase
        | reasoning | commandExecution | mcpToolCall | dynamicToolCall | collabAgentToolCall
        | webSearch | fileChange | contextCompaction | other =>
          exact h.observeCompleted_other nofun
      · next missed =>
        have none : (itemCompleted thread turn item).input active = none := by
          cases item with
          | agentMessage id text phase => exact if_neg missed
          | reasoning | commandExecution | mcpToolCall | dynamicToolCall | collabAgentToolCall
          | webSearch | fileChange | contextCompaction | other => rfl
        rw [none]
        exact h.unchanged
    · next other =>
      have none : notification.input active = none := by
        cases notification with
        | agentMessageDelta | reasoningSummaryTextDelta | commandExecutionOutputDelta =>
          cases plain
        | itemCompleted thread turn item => exact absurd rfl (other thread turn item)
        | itemStarted | rawResponseCompleted | turnStarted | turnCompleted | turnPlanUpdated
        | fileChangePatchUpdated | mcpToolCallProgress | error | modelRerouted | contextCompacted
        | other => rfl
      rw [none]
      split
      · next usage found =>
        split
        · exact h.observeUsage (usage_silent found)
        · exact h.unchanged
      · split
        · next event found =>
          split
          · next targeted => exact h.emit _ (mapEvent_silent found targeted blank)
          · exact h.unchanged
        · exact h.unchanged

end Writing

end Writes

end Runtime
