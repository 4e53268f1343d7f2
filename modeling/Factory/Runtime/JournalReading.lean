import Factory.Coordinator.StageReduction
import Factory.Runtime.JournalRun

namespace Runtime

open Coordinator Table List Json.Value EntryBody Entry

def TurnEvent.itemId : TurnEvent → Option String
  | .messageDelta itemId _ => some itemId
  | .messageStarted itemId _ _ => some itemId
  | .messageCompleted itemId _ _ => some itemId
  | .activity _ _ => none

def TurnEvent.text : TurnEvent → Option String
  | .messageDelta _ text => some text
  | .messageStarted _ text _ => some text
  | .messageCompleted _ text _ => text
  | .activity _ _ => none

def TurnEvent.closes : TurnEvent → Bool
  | .messageCompleted _ _ _ => true
  | _ => false

structure Utterance where
  streamed : String
  complete : String
  closed : Bool

namespace Utterance

def silent : Utterance := ⟨"", "", false⟩

def hear (u : Utterance) : TurnEvent → Utterance
  | .messageDelta _ text => { u with streamed := u.streamed ++ text }
  | .messageStarted _ text _ => { u with complete := text }
  | .messageCompleted _ none _ => { u with closed := true }
  | .messageCompleted _ (some text) _ => { u with complete := text, closed := true }
  | .activity _ _ => u

def markdown (u : Utterance) : String := if u.complete = "" then u.streamed else u.complete

end Utterance

def Entry.heard (id : OperationId) (turnId itemId : String) (e : Entry) : Option TurnEvent :=
  match e.body with
  | .observed turn event =>
    if e.operationId = some id ∧ turn.turnId = turnId ∧ event.itemId = some itemId then some event
    else none
  | _ => none

namespace Journal

def utterance (entries : List Entry) (id : OperationId) (turnId itemId : String) : Utterance :=
  (entries.filterMap (heard id turnId itemId)).foldl Utterance.hear .silent

def Spoken (entries : List Entry) (id : OperationId) (turnId : String) : Prop :=
  ∃ itemId, (utterance entries id turnId itemId).closed = true ∧
    Text.isBlank (utterance entries id turnId itemId).markdown = false

def Closed (entries : List Entry) (id : OperationId) (turnId : String) : Prop :=
  ∃ e ∈ entriesOf entries id, ∃ turn event, e.body = .observed turn event ∧
    turn.turnId = turnId ∧ event.closes = true

variable {entries : List Entry} {turns : List StartedTurn} {nextSequence : Nat} {e : Entry}
  {id : OperationId} {turnId itemId : String} {turn : TurnRef} {event : TurnEvent}
  {jobId : JobId} {attemptId : AttemptId}

theorem correlate_get_turnId (fields : List (String × Json.Value)) (turn : TurnRef) :
    (correlate fields turn).get "turnId" = some (.string turn.turnId) := by
  obtain ⟨threaded,same⟩ :=
    set_object fields "threadId" (.string turn.threadId)
  rw [correlate,same,get_set_self]

theorem correlate_get {key : String} (thread : key ≠ "threadId") (active : key ≠ "turnId")
    (fields : List (String × Json.Value)) (turn : TurnRef) :
    (correlate fields turn).get key = (object fields).get key := by
  obtain ⟨threaded,same⟩ :=
    set_object fields "threadId" (.string turn.threadId)
  rw [correlate,same,get_set_other active,← same,get_set_other thread]

theorem correlate_turnId (fields : List (String × Json.Value)) (turn : TurnRef) :
    (correlate fields turn).text "turnId" = some turn.turnId := by
  rw [text,correlate_get_turnId]
  rfl

theorem correlate_text {key : String} (thread : key ≠ "threadId") (active : key ≠ "turnId")
    (fields : List (String × Json.Value)) (turn : TurnRef) :
    (correlate fields turn).text key = (object fields).text key := by
  rw [text,correlate_get thread active,text]

theorem not_message_kind {kind : String} (foreign : kind ∉ journalKinds) :
    isMessageKind kind = false := by
  simp only [journalKinds,mem_cons,not_or] at foreign
  simp [isMessageKind,foreign]

theorem TurnEvent.message_iff (permitted : event.permitted = true) :
    isMessageKind event.kind = true ↔ event.itemId.isSome = true := by
  cases event with
  | messageDelta itemId text | messageStarted itemId text phase
  | messageCompleted itemId text phase => simp [TurnEvent.kind,TurnEvent.itemId,isMessageKind]
  | activity kind fields =>
    have silent := not_message_kind (of_decide_eq_true permitted)
    simp [TurnEvent.kind,TurnEvent.itemId,silent]

theorem TurnEvent.texts {item : String} (named : event.itemId = some item) :
    (Json.Value.object event.fields).text "itemId" = some item ∧
      (Json.Value.object event.fields).text "text" = event.text := by
  unfold Json.Value.text Json.Value.get Json.Value.asStr TurnEvent.fields TurnEvent.text
  cases event with
  | messageDelta | messageStarted =>
    obtain rfl := Option.some.inj named
    simp
  | messageCompleted itemId text phase =>
    obtain rfl := Option.some.inj named
    cases text <;> simp
  | activity kind fields => contradiction

theorem message_observed (recordable : Recordable turns e) (own : e.operationId = some id)
    (message : isMessageKind e.body.kind = true) :
    ∃ turn event, e.body = .observed turn event ∧ event.itemId.isSome = true := by
  cases body : e.body with
  | observed turn event =>
    rw [Recordable,body] at recordable
    rw [body] at message
    exact ⟨turn,event,rfl,(TurnEvent.message_iff recordable.1).mp message⟩
  | turnAccepted | stageCompleted =>
    rw [body] at message
    simp [isMessageKind,kind] at message
  | noted kind payload =>
    rw [Recordable,body] at recordable
    rcases recordable with none | foreign
    · rw [own] at none
      contradiction
    · rw [body] at message
      rw [EntryBody.kind,not_message_kind foreign] at message
      contradiction

theorem Logged.recordable (h : Logged entries nextSequence turns) (mem : e ∈ entries) :
    Recordable turns e := by
  unfold Recordable
  split
  · next turn event body => exact h.observed e mem turn event body
  · next kind payload body => exact h.noted e mem kind payload body
  · trivial
  · trivial

theorem heard_eq_some : e.heard id turnId itemId = some event ↔
    e.operationId = some id ∧ (∃ turn, e.body = .observed turn event ∧ turn.turnId = turnId) ∧
      event.itemId = some itemId := by
  unfold heard
  split
  · next turn observed body =>
    rw [body]
    constructor
    · intro found
      split at found
      · next hit =>
        obtain rfl := Option.some.inj found
        exact ⟨hit.1,⟨turn,rfl,hit.2.1⟩,hit.2.2⟩
      · contradiction
    · rintro ⟨own,⟨turn',same,rfl⟩,item⟩
      obtain ⟨rfl,rfl⟩ := EntryBody.observed.inj same
      rw [if_pos ⟨own,rfl,item⟩]
  · next other =>
    constructor
    · intro found
      contradiction
    · rintro ⟨-,⟨turn,body,-⟩,-⟩
      exact absurd body (other turn event)

def spokenBy (id : OperationId) (attemptId : AttemptId) (turnId : String) (row : JobEventRow) :
    Bool :=
  row.operationId = some id ∧ row.attemptId = some attemptId ∧
    row.payload.text "turnId" = some turnId ∧ isMessageKind row.kind ∧
    (row.payload.text "itemId").isSome

def itemOf (row : JobEventRow) : String := (row.payload.text "itemId").getD ""

theorem heard_row (recordable : Recordable turns e)
    (attempts : ∀ turn event, e.operationId = some id → e.body = .observed turn event →
      turn.turnId = turnId → e.attemptId = some attemptId) :
    (spokenBy id attemptId turnId (e.row jobId) = true ∧ itemOf (e.row jobId) = itemId) ↔
      (e.heard id turnId itemId).isSome = true := by
  unfold itemOf
  constructor
  · rintro ⟨spoken,item⟩
    obtain ⟨own,-,active,message,-⟩ := of_decide_eq_true spoken
    obtain ⟨turn,event,body,named⟩ := message_observed recordable own message
    obtain ⟨name,found⟩ := Option.isSome_iff_exists.mp named
    have payload : (e.row jobId).payload = correlate event.fields turn := by
      simp [row,body,payload]
    rw [payload,correlate_turnId] at active
    rw [payload,correlate_text (by decide) (by decide),(TurnEvent.texts found).1] at item
    obtain rfl : name = itemId := item
    rw [heard_eq_some.mpr ⟨own,⟨turn,body,Option.some.inj active⟩,found⟩]
    rfl
  · intro heard
    obtain ⟨event,found⟩ := Option.isSome_iff_exists.mp heard
    obtain ⟨own,⟨turn,body,active⟩,item⟩ := heard_eq_some.mp found
    have payload : (e.row jobId).payload = correlate event.fields turn := by
      simp [row,body,payload]
    have permitted : event.permitted = true := by
      rw [Recordable,body] at recordable
      exact recordable.1
    have kind : isMessageKind (e.row jobId).kind = true := by
      have message := (TurnEvent.message_iff permitted).mpr (by rw [item]; rfl)
      simpa [row,body,kind] using message
    have named : (e.row jobId).payload.text "itemId" = some itemId := by
      rw [payload,correlate_text (by decide) (by decide),(TurnEvent.texts item).1]
    have activated : (e.row jobId).payload.text "turnId" = some turnId := by
      rw [payload,correlate_turnId,active]
    refine ⟨decide_eq_true ⟨own,attempts turn event own body active,activated,kind,?_⟩,?_⟩
    · rw [named]
      rfl
    · rw [named]
      rfl

structure Hears (found : Option AgentMessage) (u : Utterance) : Prop where
  streamed : (found.getD .default).streamed = u.streamed
  complete : (found.getD .default).complete = u.complete
  closed : (found.getD .default).completedSequence.isSome = u.closed

variable {found : Option AgentMessage} {u : Utterance} {upper : Nat}

theorem Hears.observe (h : Hears found u) (heard : e.heard id turnId itemId = some event) :
    Hears (some ((found.getD .default).observe (e.row jobId))) (u.hear event) := by
  obtain ⟨-,⟨turn,body,-⟩,item⟩ := heard_eq_some.mp heard
  have payload : (e.row jobId).payload = correlate event.fields turn := by
    simp [row,body,payload]
  have kind : (e.row jobId).kind = event.kind := by
    simp [row,body,kind]
  have text : (e.row jobId).payload.text "text" = event.text := by
    rw [payload,correlate_text (by decide) (by decide),(TurnEvent.texts item).2]
  obtain ⟨streamed,complete,closed⟩ := h
  cases event with
  | messageDelta itemId part =>
    constructor <;> simp [AgentMessage.observe,AgentMessage.read,text,kind,TurnEvent.kind,
      TurnEvent.text,Utterance.hear,streamed,complete,closed]
  | messageStarted itemId whole phase =>
    constructor <;> simp [AgentMessage.observe,AgentMessage.read,text,kind,TurnEvent.kind,
      TurnEvent.text,Utterance.hear,streamed,closed]
  | messageCompleted itemId whole phase =>
    cases whole <;> constructor <;> simp [AgentMessage.observe,AgentMessage.read,text,kind,
      TurnEvent.kind,TurnEvent.text,Utterance.hear,streamed,complete]
  | activity kind fields => contradiction

theorem fold_hears (h : Hears found u)
    (rows : ∀ e ∈ entries, (spokenBy id attemptId turnId (e.row jobId) = true ∧
      itemOf (e.row jobId) = itemId) ↔ (e.heard id turnId itemId).isSome = true) :
    Hears ((((entries.map (row jobId)).filter (spokenBy id attemptId turnId)).filter
        (fun row => itemOf row = itemId)).foldl
        (fun message row => some ((message.getD .default).observe row)) found)
      ((entries.filterMap (heard id turnId itemId)).foldl Utterance.hear u) := by
  induction entries generalizing found u with
  | nil => exact h
  | cons e rest ih =>
    have tail := fun x mem => rows x (mem_cons_of_mem _ mem)
    have first := rows e mem_cons_self
    rw [filter_filter] at ih ⊢
    rw [map_cons]
    cases heard : e.heard id turnId itemId with
    | none =>
      rw [filterMap_cons_none heard,filter_cons_of_neg]
      · exact ih h tail
      · rw [heard] at first
        simpa [and_comm] using first
    | some event =>
      rw [filterMap_cons_some heard,filter_cons_of_pos,foldl_cons,
        foldl_cons]
      · exact ih (h.observe heard) tail
      · rw [heard] at first
        simpa [and_comm] using first

def Voiced (entries : List Entry) (id : OperationId) (attemptId : AttemptId) (turnId : String) :
    Prop :=
  ∀ e ∈ entries, ∀ turn event, e.operationId = some id → e.body = .observed turn event →
    turn.turnId = turnId → e.attemptId = some attemptId

theorem collected_hears (jobId : JobId) (itemId : String)
    (logged : Logged entries nextSequence turns) (voiced : Voiced entries id attemptId turnId) :
    Hears (Assoc.get itemId (collectMessages
      (turnMessages (entries.map (row jobId)) id attemptId turnId)))
      (utterance entries id turnId itemId) := by
  unfold collectMessages
  rw [Assoc.get_gather]
  refine fold_hears ⟨rfl,rfl,rfl⟩ ?_
  intro e mem
  exact heard_row (logged.recordable mem) (voiced e mem)

theorem Hears.markdown {message : AgentMessage} (h : Hears (some message) u) :
    message.markdown = u.markdown := by
  obtain ⟨streamed,complete,-⟩ := h
  rw [AgentMessage.markdown,Utterance.markdown,← streamed,← complete]
  rfl

theorem reduceTurn_spoken (logged : Logged entries nextSequence turns)
    {validated : ValidatedAgentTurn}
    (voiced : Voiced entries id validated.attemptId validated.turnId) :
    (reduceTurn (entries.map (row jobId)) id validated).isSome = true ↔
      Spoken entries id validated.turnId := by
  rw [reduceTurn_isSome]
  constructor
  · rintro ⟨⟨itemId,message⟩,mem,closed,text⟩
    have hears := collected_hears jobId itemId logged voiced
    rw [(Assoc.mem_iff_get (collected_nodup _)).mp mem] at hears
    refine ⟨itemId,?_,?_⟩
    · rw [← hears.closed]
      exact closed
    · rw [← hears.markdown]
      exact text
  · rintro ⟨itemId,closed,text⟩
    have hears := collected_hears jobId itemId logged voiced
    cases found : Assoc.get itemId (collectMessages
        (turnMessages (entries.map (row jobId)) id validated.attemptId validated.turnId)) with
    | none =>
      rw [found] at hears
      rw [← hears.closed] at closed
      contradiction
    | some message =>
      rw [found] at hears
      refine ⟨(itemId, message),(Assoc.mem_iff_get (collected_nodup _)).mpr found,?_,?_⟩
      · rw [← closed,← hears.closed]
        rfl
      · rw [hears.markdown]
        exact text

theorem Logged.voiced (logged : Logged entries nextSequence turns) (mem : e ∈ entries)
    (body : e.body = .observed turn event)
    (attempt : e.attemptId = some attemptId) : Voiced entries id attemptId turn.turnId := by
  intro x known turn' event' _ body' same
  obtain ⟨-,t,started,named,-,carried⟩ := logged.observed e mem turn event body
  obtain ⟨-,t',started',named',-,carried'⟩ := logged.observed x known turn' event' body'
  obtain rfl := inj_on_of_nodup_map logged.turnIds started started' (by rw [named,named',same])
  rw [carried',← carried,attempt]

theorem completed_row_iff (recordable : Recordable turns e) (own : e.operationId = some id) :
    ((e.row jobId).kind = "agent.message.completed" ∧
      (e.row jobId).payload.text "turnId" = some turnId) ↔
      ∃ turn event, e.body = .observed turn event ∧ turn.turnId = turnId ∧ event.closes = true := by
  constructor
  · rintro ⟨kind,active⟩
    have message : isMessageKind e.body.kind = true := by
      rw [show e.body.kind = _ from kind]
      rfl
    obtain ⟨turn,event,body,named⟩ := message_observed recordable own message
    have payload : (e.row jobId).payload = correlate event.fields turn := by
      simp [row,body,EntryBody.payload]
    rw [payload,correlate_turnId] at active
    refine ⟨turn,event,body,Option.some.inj active,?_⟩
    have named_kind : event.kind = "agent.message.completed" := by
      rw [← kind]
      simp [row,body,EntryBody.kind]
    cases event with
    | messageDelta | messageStarted => simp [TurnEvent.kind] at named_kind
    | messageCompleted itemId text phase => rfl
    | activity kind fields => contradiction
  · rintro ⟨turn,event,body,rfl,closes⟩
    have payload : (e.row jobId).payload = correlate event.fields turn := by
      simp [row,body,EntryBody.payload]
    refine ⟨?_,by rw [payload,correlate_turnId]⟩
    cases event with
    | messageCompleted itemId text phase => simp [row,body,EntryBody.kind,TurnEvent.kind]
    | messageDelta | messageStarted | activity => contradiction

theorem mem_completed (jobId : JobId) (logged : Logged entries nextSequence turns)
    (bound : ∀ e ∈ entriesOf entries id, e.sequence ≤ upper) {row : JobEventRow} :
    row ∈ (entries.map (Entry.row jobId)).filter (fun event => event.sequence ≤ upper ∧
      event.operationId = some id ∧ event.kind = "agent.message.completed" ∧
      event.payload.text "turnId" = some turnId) ↔
    ∃ e ∈ entriesOf entries id, (∃ turn event, e.body = .observed turn event ∧
      turn.turnId = turnId ∧ event.closes = true) ∧ e.row jobId = row := by
  rw [mem_filter,mem_map,decide_eq_true_eq]
  constructor
  · rintro ⟨⟨e,mem,rfl⟩,-,own,kind,active⟩
    exact ⟨e,mem_entriesOf.mpr ⟨mem,own⟩,
      (completed_row_iff (logged.recordable mem) own).mp ⟨kind,active⟩,rfl⟩
  · rintro ⟨e,found,closes,rfl⟩
    obtain ⟨mem,own⟩ := mem_entriesOf.mp found
    obtain ⟨kind,active⟩ := (completed_row_iff (logged.recordable mem) own).mpr closes
    exact ⟨⟨e,mem,rfl⟩,bound e found,own,kind,active⟩

def acceptedAttempt (events : List JobEventRow) (id : OperationId) (upper : Nat)
    (turnId : String) : Option AttemptId :=
  (lastCompletedMessage events id upper turnId).bind (·.attemptId)

theorem acceptedAttempt_voiced (logged : Logged entries nextSequence turns)
    (bound : ∀ e ∈ entriesOf entries id, e.sequence ≤ upper)
    (found : acceptedAttempt (entries.map (Entry.row jobId)) id upper turnId = some attemptId) :
    Voiced entries id attemptId turnId := by
  obtain ⟨row,chosen,attempt⟩ := Option.bind_eq_some_iff.mp found
  obtain ⟨e,known,⟨turn,event,body,rfl,-⟩,rfl⟩ :=
    (mem_completed jobId logged bound).mp (maxByKey_mem chosen)
  exact logged.voiced (mem_entriesOf.mp known).1 body attempt

theorem acceptedAttempt_isSome (jobId : JobId) (logged : Logged entries nextSequence turns)
    (bound : ∀ e ∈ entriesOf entries id, e.sequence ≤ upper) :
    (acceptedAttempt (entries.map (Entry.row jobId)) id upper turnId).isSome = true ↔
      Closed entries id turnId := by
  constructor
  · intro found
    obtain ⟨attempt,some⟩ := Option.isSome_iff_exists.mp found
    obtain ⟨row,chosen,-⟩ := Option.bind_eq_some_iff.mp some
    obtain ⟨e,known,closes,-⟩ := (mem_completed jobId logged bound).mp (maxByKey_mem chosen)
    exact ⟨e,known,closes⟩
  · rintro ⟨e,known,closes⟩
    have present := ne_nil_of_mem
      ((mem_completed jobId logged bound).mpr ⟨e,known,closes,rfl⟩)
    obtain ⟨row,chosen⟩ := Option.isSome_iff_exists.mp (maxByKey_isSome.mpr present)
    obtain ⟨x,known',⟨turn,event,body,-,-⟩,rfl⟩ :=
      (mem_completed jobId logged bound).mp (maxByKey_mem chosen)
    obtain ⟨-,t,-,-,-,attempt⟩ :=
      logged.observed x (mem_entriesOf.mp known').1 turn event body
    rw [acceptedAttempt,lastCompletedMessage,chosen]
    exact Option.isSome_iff_exists.mpr ⟨_,attempt⟩

theorem fold_closed {events : List TurnEvent} (h : (events.foldl Utterance.hear u).closed = true) :
    u.closed = true ∨ ∃ event ∈ events, event.closes = true := by
  induction events generalizing u with
  | nil => exact .inl h
  | cons event rest ih =>
    rcases ih h with closed | ⟨later,mem,closes⟩
    · by_cases closes : event.closes = true
      · exact .inr ⟨event,mem_cons_self,closes⟩
      · cases event with
        | messageCompleted itemId text phase => exact absurd rfl closes
        | messageDelta | messageStarted | activity => exact .inl closed
    · exact .inr ⟨later,mem_cons_of_mem _ mem,closes⟩

theorem Spoken.closed (h : Spoken entries id turnId) : Closed entries id turnId := by
  obtain ⟨itemId,closed,-⟩ := h
  rcases fold_closed closed with silent | ⟨event,heard,closes⟩
  · contradiction
  · obtain ⟨e,mem,found⟩ := mem_filterMap.mp heard
    obtain ⟨own,⟨turn,body,active⟩,-⟩ := heard_eq_some.mp found
    exact ⟨e,mem_entriesOf.mpr ⟨mem,own⟩,turn,event,body,active,closes⟩

end Journal

end Runtime
