import Factory.Runtime.EventWriter
import Factory.Runtime.JournalReading

namespace Runtime

open Coordinator Json List TextCoalescer TurnEvent

inductive MessageInput where
  | delta (item text : String)
  | completed (item : String) (phase : Option MessagePhase) (text : String)
  deriving DecidableEq

def ServerNotification.input (active : ActiveTurn) : ServerNotification → Option MessageInput
  | .agentMessageDelta thread turn item delta =>
    if targets (some active) thread turn then some (.delta item delta) else none
  | .itemCompleted thread turn (.agentMessage id text phase) =>
    if targets (some active) thread turn then some (.completed id phase text) else none
  | _ => none

namespace MessageInput

def item : MessageInput → String
  | .delta item _ => item
  | .completed item _ _ => item

def completes : MessageInput → Option String
  | .delta _ _ => none
  | .completed item _ _ => some item

def chars (item : String) : MessageInput → List Char
  | .delta own text => if own = item then text.toList else []
  | .completed _ _ _ => []

end MessageInput

def inputChars (item : String) (inputs : List MessageInput) : List Char :=
  inputs.flatMap (MessageInput.chars item)

def Completed (item : String) (inputs : List MessageInput) : Prop :=
  ∃ i ∈ inputs, i.completes = some item

def Orderly (inputs : List MessageInput) : Prop :=
  inputs.Pairwise (fun earlier later => earlier.completes ≠ some later.item)

def ActiveTurn.ref (active : ActiveTurn) : TurnRef := ⟨active.thread, active.turn⟩

def TurnEvent.appended (turn : TurnRef) (event : TurnEvent) : NewAttemptEvent :=
  ⟨event.kind, correlate event.fields turn, none⟩

def TurnEvent.chars (item : String) : TurnEvent → List Char
  | .messageDelta own text => if own = item then text.toList else []
  | _ => []

def streamedChars (item : String) (log : List TurnEvent) : List Char :=
  log.flatMap (chars item)

def agentKey (item : String) : StreamKey := ⟨"agent.message", item, none⟩

def StreamKey.Known (key : StreamKey) : Prop :=
  isMessageKind key.kind = false ∨ key = agentKey key.item

def pendingChars (item : String) : Option TextChunk → List Char
  | none => []
  | some chunk => if chunk.key = agentKey item then chunk.text.toList else []

def chunkLog (chunk : TextChunk) : List TurnEvent :=
  if chunk.key = agentKey chunk.key.item then [.messageDelta chunk.key.item chunk.text] else []

def finishOf (inputs : List MessageInput) : MessageInput → Option TurnEvent
  | .delta _ _ => none
  | .completed item phase text =>
    if inputChars item inputs = [] then
      (compact text).map fun out =>
        .messageCompleted item (some out) (phase.map MessagePhase.wireName)
    else some (.messageCompleted item none (phase.map MessagePhase.wireName))

structure StreamKept (inputs : List MessageInput) (log : List TurnEvent)
    (pending : Option TextChunk) (streamed : List String) : Prop where
  known : ∀ chunk ∈ pending, chunk.key.Known
  text : ∀ item, streamedChars item log ++ pendingChars item pending = inputChars item inputs
  streamed : ∀ item, item ∈ streamed ↔ streamedChars item log ≠ [] ∧ ¬ Completed item inputs
  closed : ∀ item, Completed item inputs → pendingChars item pending = []
  finished : log.filter closes = inputs.filterMap (finishOf inputs)

section Coalescing

variable {item : String} {key : StreamKey} {coalescer : TextCoalescer}

theorem streamedChars_append (item : String) (log more : List TurnEvent) :
    streamedChars item (log ++ more) = streamedChars item log ++ streamedChars item more :=
  flatMap_append

theorem inputChars_append (item : String) (inputs more : List MessageInput) :
    inputChars item (inputs ++ more) = inputChars item inputs ++ inputChars item more :=
  flatMap_append

theorem chunkLog_chars (item : String) (chunk : TextChunk) :
    streamedChars item (chunkLog chunk) =
      if chunk.key = agentKey item then chunk.text.toList else [] := by
  by_cases hit : chunk.key = agentKey item
  · have own : chunk.key.item = item := congrArg StreamKey.item hit
    rw [if_pos hit,chunkLog,own,if_pos hit]
    simp [streamedChars,chars]
  · rw [if_neg hit,chunkLog]
    split
    · next own =>
      have other : chunk.key.item ≠ item := fun same => hit (same ▸ own)
      simp [streamedChars,chars,other]
    · rfl

theorem pendingChars_some (item : String) (chunk : TextChunk) :
    pendingChars item (some chunk) = streamedChars item (chunkLog chunk) :=
  (chunkLog_chars item chunk).symm

theorem flush_balance (item : String) (coalescer : TextCoalescer) :
    pendingChars item coalescer.pending =
      streamedChars item (coalescer.flush.1.toList.flatMap chunkLog) := by
  unfold flush
  cases coalescer.pending with
  | none => rfl
  | some chunk =>
    by_cases empty : chunk.text = ""
    · simp [Option.filter,empty,pendingChars,streamedChars]
    · rw [pendingChars_some]
      simp [Option.filter,empty]

theorem switch_balance (item : String) (key : StreamKey) (coalescer : TextCoalescer) :
    pendingChars item coalescer.pending =
      streamedChars item ((coalescer.switch key).1.toList.flatMap chunkLog) ++
        pendingChars item (coalescer.switch key).2.pending := by
  unfold switch
  split
  · rw [flush_balance item coalescer]
    exact (append_nil _).symm
  · rfl

variable {chunk : TextChunk}

theorem switch_pending (h : (coalescer.switch key).2.pending = some chunk) :
    chunk.key = key ∧ coalescer.pending = some chunk := by
  unfold switch at h
  split at h
  · cases h
  · next same =>
    refine ⟨?_,h⟩
    by_contra different
    exact same (by rw [h]; simpa using different)

theorem chunks_chars (item : String) (key : StreamKey) (chunks : List (List Char)) :
    streamedChars item ((chunks.map fun chunk => (⟨key, String.ofList chunk⟩ : TextChunk)).flatMap
      chunkLog) = if key = agentKey item then chunks.flatten else [] := by
  induction chunks with
  | nil => simp [streamedChars]
  | cons chunk rest ih =>
    rw [map_cons,flatMap_cons,streamedChars_append,chunkLog_chars,ih]
    split
    · simp
    · rfl

theorem push_balance (item : String) (key : StreamKey) (delta : String)
    (coalescer : TextCoalescer) :
    pendingChars item coalescer.pending ++ (if key = agentKey item then delta.toList else []) =
      streamedChars item ((coalescer.push key delta).1.flatMap chunkLog) ++
        pendingChars item (coalescer.push key delta).2.pending := by
  rw [switch_balance item key coalescer]
  unfold push
  simp only [flatMap_append,streamedChars_append,chunks_chars,append_assoc]
  congr 1
  generalize switched : coalescer.switch key = pair
  obtain ⟨flushed,rest⟩ := pair
  have pending : pendingChars item rest.pending =
      if key = agentKey item then ((rest.pending.map (·.text)).getD "").toList else [] := by
    cases found : rest.pending with
    | none => simp [pendingChars]
    | some chunk =>
      have own : chunk.key = key := (switch_pending (by rw [switched]; exact found)).1
      simp [pendingChars,own]
  rw [pending]
  simp only [pendingChars_some,chunkLog_chars,String.toList_ofList]
  split
  · rw [drain_flatten,String.toList_append]
  · rfl

theorem flush_mem (h : chunk ∈ coalescer.flush.1.toList) :
    coalescer.pending = some chunk ∧ chunk.text ≠ "" := by
  have kept := Option.mem_toList.mp h
  simp only [flush,Option.filter_eq_some_iff] at kept
  exact ⟨kept.1,by simpa using kept.2⟩

theorem push_mem {delta : String} (h : chunk ∈ (coalescer.push key delta).1) :
    (coalescer.pending = some chunk ∨ chunk.key = key) ∧ chunk.text ≠ "" := by
  unfold push at h
  rcases mem_append.mp h with flushed | drained
  · unfold switch at flushed
    split at flushed
    · exact ⟨.inl (flush_mem flushed).1,(flush_mem flushed).2⟩
    · cases flushed
  · obtain ⟨chars,member,rfl⟩ := mem_map.mp drained
    refine ⟨.inr rfl,fun empty => (mem_drain member).1 ?_⟩
    have blank := congrArg String.toList empty
    rwa [String.toList_ofList] at blank

end Coalescing

section Completion

variable {item : String} {inputs added : List MessageInput} {log : List TurnEvent}
  {pending next : Option TextChunk} {streamed marked : List String} {chunks : List TextChunk}

theorem completed_append : Completed item (inputs ++ added) ↔
    Completed item inputs ∨ Completed item added := by
  simp only [Completed,mem_append,or_and_right,exists_or]

theorem inputChars_eq_nil (absent : ∀ i ∈ added, i.item ≠ item) : inputChars item added = [] := by
  refine flatMap_eq_nil_iff.mpr fun i member => ?_
  cases i with
  | delta own text => exact if_neg (absent _ member)
  | completed own phase text => rfl

theorem streamedChars_ne_nil (nonempty : ∀ c ∈ chunks, c.text ≠ "") :
    streamedChars item (chunks.flatMap chunkLog) ≠ [] ↔
      ∃ c ∈ chunks, c.key = agentKey item := by
  induction chunks with
  | nil => simp [streamedChars]
  | cons chunk rest ih =>
    rw [flatMap_cons,streamedChars_append,chunkLog_chars,Ne,append_eq_nil_iff,
      not_and_or,← Ne,← Ne,ih fun c member => nonempty c (mem_cons_of_mem _ member)]
    have own : (if chunk.key = agentKey item then chunk.text.toList else []) ≠ [] ↔
        chunk.key = agentKey item := by
      have text := nonempty chunk mem_cons_self
      by_cases hit : chunk.key = agentKey item
      · simpa [hit] using text
      · simp [hit]
    rw [own,exists_mem_cons_iff]

theorem chunkLog_open {event : TurnEvent} (h : event ∈ chunks.flatMap chunkLog) :
    event.closes = false := by
  obtain ⟨chunk,_,logged⟩ := mem_flatMap.mp h
  unfold chunkLog at logged
  split at logged
  · cases mem_singleton.mp logged
    rfl
  · cases logged

theorem finishOf_append {input : MessageInput}
    (kept : ∀ item, input.completes = some item → inputChars item added = []) :
    finishOf (inputs ++ added) input = finishOf inputs input := by
  cases input with
  | delta own text => rfl
  | completed own phase text =>
    simp only [finishOf,inputChars_append,kept own rfl,append_nil]

theorem filterMap_finishOf (kept : ∀ item, Completed item inputs → inputChars item added = []) :
    inputs.filterMap (finishOf (inputs ++ added)) = inputs.filterMap (finishOf inputs) := by
  refine filterMap_congr fun input member => finishOf_append fun item completes => ?_
  exact kept item ⟨input,member,completes⟩

theorem StreamKept.persist (h : StreamKept inputs log pending streamed)
    (balance : ∀ item, pendingChars item pending ++ inputChars item added =
      streamedChars item (chunks.flatMap chunkLog) ++ pendingChars item next)
    (nonempty : ∀ c ∈ chunks, c.text ≠ "") (known : ∀ c ∈ next, c.key.Known)
    (members : ∀ item, item ∈ marked ↔ item ∈ streamed ∨ ∃ c ∈ chunks, c.key = agentKey item)
    (deltas : ∀ i ∈ added, i.completes = none)
    (orderly : ∀ i ∈ added, ¬ Completed i.item inputs) :
    StreamKept (inputs ++ added) (log ++ chunks.flatMap chunkLog) next marked := by
  have same : ∀ item, Completed item (inputs ++ added) ↔ Completed item inputs := by
    intro item
    rw [completed_append,or_iff_left]
    rintro ⟨i,member,completes⟩
    rw [deltas i member] at completes
    cases completes
  have silent : ∀ item, Completed item inputs → inputChars item added = [] := fun item done =>
    inputChars_eq_nil fun i member own => orderly i member (own ▸ done)
  have quiet : ∀ item, Completed item inputs →
      streamedChars item (chunks.flatMap chunkLog) = [] ∧ pendingChars item next = [] := by
    intro item done
    have split := balance item
    rw [h.closed item done,silent item done] at split
    exact append_eq_nil_iff.mp split.symm
  refine ⟨known,?_,?_,?_,?_⟩
  · intro item
    rw [streamedChars_append,append_assoc,← balance,← append_assoc,h.text,
      inputChars_append]
  · intro item
    have grown : streamedChars item (log ++ chunks.flatMap chunkLog) ≠ [] ↔
        streamedChars item log ≠ [] ∨ streamedChars item (chunks.flatMap chunkLog) ≠ [] := by
      rw [streamedChars_append,Ne,append_eq_nil_iff,not_and_or]
    rw [members,h.streamed,same,grown,← streamedChars_ne_nil nonempty]
    constructor
    · rintro (⟨old,opened⟩ | new)
      · exact ⟨.inl old,opened⟩
      · exact ⟨.inr new,fun done => new (quiet item done).1⟩
    · rintro ⟨old | new,opened⟩
      · exact .inl ⟨old,opened⟩
      · exact .inr new
  · intro item done
    exact (quiet item ((same item).mp done)).2
  · have none_closed : (chunks.flatMap chunkLog).filter closes = [] :=
      filter_eq_nil_iff.mpr fun event member => by simp [chunkLog_open member]
    have none_finished : added.filterMap (finishOf (inputs ++ added)) = [] := by
      refine filterMap_eq_nil_iff.mpr fun input member => ?_
      cases input with
      | delta own text => rfl
      | completed own phase text => cases deltas _ member
    rw [filter_append,none_closed,h.finished,filterMap_append,none_finished,
      filterMap_finishOf silent]

def completionLog (item : String) (phase : Option MessagePhase) (text : String)
    (streamed : List String) : List TurnEvent :=
  if item ∈ streamed then [.messageCompleted item none (phase.map MessagePhase.wireName)]
  else ((compact text).map fun out =>
    .messageCompleted item (some out) (phase.map MessagePhase.wireName)).toList

variable {phase : Option MessagePhase}

theorem completionLog_chars {other : String} {text : String} :
    streamedChars other (completionLog item phase text streamed) = [] := by
  refine flatMap_eq_nil_iff.mpr fun event member => ?_
  unfold completionLog at member
  split at member
  · cases mem_singleton.mp member
    rfl
  · obtain ⟨out,-,rfl⟩ := Option.map_eq_some_iff.mp (Option.mem_toList.mp member)
    rfl

theorem completionLog_closes {text : String} :
    (completionLog item phase text streamed).filter closes =
      completionLog item phase text streamed := by
  refine filter_eq_self.mpr fun event member => ?_
  unfold completionLog at member
  split at member
  · cases mem_singleton.mp member
    rfl
  · obtain ⟨out,-,rfl⟩ := Option.map_eq_some_iff.mp (Option.mem_toList.mp member)
    rfl

theorem StreamKept.complete (h : StreamKept inputs log none streamed)
    (fresh : ¬ Completed item inputs) (phase : Option MessagePhase) (text : String) :
    StreamKept (inputs ++ [.completed item phase text])
      (log ++ completionLog item phase text streamed) none (streamed.filter (· ≠ item)) := by
  have settled : ∀ other, streamedChars other log = inputChars other inputs := by
    intro other
    have kept := h.text other
    rwa [pendingChars,append_nil] at kept
  have silent : ∀ other, inputChars other [MessageInput.completed item phase text] = [] :=
    fun _ => rfl
  have done : ∀ other, Completed other (inputs ++ [MessageInput.completed item phase text]) ↔
      Completed other inputs ∨ other = item := by
    intro other
    rw [completed_append]
    simp [Completed,MessageInput.completes,eq_comm]
  refine ⟨nofun,?_,?_,fun _ _ => rfl,?_⟩
  · intro other
    rw [streamedChars_append,completionLog_chars,inputChars_append,silent,append_nil,
      append_nil]
    exact h.text other
  · intro other
    rw [streamedChars_append,completionLog_chars,append_nil,done,mem_filter,
      h.streamed]
    simp only [decide_eq_true_eq]
    tauto
  · rw [filter_append,completionLog_closes,h.finished,filterMap_append,
      filterMap_finishOf fun other _ => silent other]
    congr 1
    have streamed_iff : item ∈ streamed ↔ inputChars item inputs ≠ [] := by
      rw [h.streamed,settled,and_iff_left fresh]
    by_cases marked : item ∈ streamed
    · have spoken := streamed_iff.mp marked
      simp [completionLog,marked,finishOf,inputChars_append,silent,spoken]
    · have mute : inputChars item inputs = [] := by
        by_contra spoken
        exact marked (streamed_iff.mpr spoken)
      cases compacted : compact text with
      | none | some =>
        simp [completionLog,marked,finishOf,inputChars_append,silent,mute,compacted]

end Completion

end Runtime
