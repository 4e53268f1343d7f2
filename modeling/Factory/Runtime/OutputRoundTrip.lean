import Factory.Coordinator.Effects
import Factory.Runtime.OutputAnswers

namespace Runtime

open Coordinator Json Result List AttemptEventWriter

def storeAppend (now : Timestamp) (fence : AttemptFence) (event : NewAttemptEvent) (s : Store) :
    Outcome Store :=
  (s.appendAttemptEvent now fence event).map Prod.snd

structure WriterSystem where
  writer : AttemptEventWriter
  store : Store

inductive WriterStep where
  | observe (now : Timestamp) (notification : ServerNotification)
  | emit (now : Timestamp) (kind : String) (payload : Value)
  | other (store : Store)

def WriterStep.input (active : ActiveTurn) : WriterStep → Option MessageInput
  | .observe _ notification => notification.input active
  | .emit _ _ _ | .other _ => none

def Owned (fence : AttemptFence) (operationId : OperationId) (s : Store) : Prop :=
  ∀ a ∈ s.attempts, a.attemptId = fence.attemptId → a.operationId = operationId

structure Undisturbed (fence : AttemptFence) (operationId : OperationId) (turnId : String)
    (s t : Store) : Prop where
  owned : Owned fence operationId t
  sequence : s.nextSequence ≤ t.nextSequence
  messages : turnMessages t.events operationId fence.attemptId turnId =
    turnMessages s.events operationId fence.attemptId turnId

namespace WriterSystem

def apply (fence : AttemptFence) (sys : WriterSystem) : WriterStep → Outcome WriterSystem
  | .observe now notification =>
    (sys.writer.observe (storeAppend now fence) notification sys.store).map
      fun result => ⟨result.1, result.2⟩
  | .emit now kind payload =>
    (perform (storeAppend now fence) (sys.writer.emit kind payload)
      sys.store).map fun result => ⟨result.1, result.2⟩
  | .other store => .ok { sys with store := store }

def step (fence : AttemptFence) (sys : WriterSystem) (input : WriterStep) : WriterSystem :=
  match sys.apply fence input with
  | .ok next => next
  | .error _ => sys

def Allowed (fence : AttemptFence) (operationId : OperationId) (active : ActiveTurn)
    (sys : WriterSystem) (input : WriterStep) : Prop :=
  (∃ next, sys.apply fence input = .ok next) ∧
    match input with
    | .observe _ notification => notification.StartsBlank active
    | .emit _ kind _ => isMessageKind kind = false
    | .other store => Undisturbed fence operationId active.turn sys.store store

end WriterSystem

structure Stored (fence : AttemptFence) (operationId : OperationId) (turn : TurnRef)
    (s : Store) (stamped : List (Nat × TurnEvent)) : Prop where
  owned : Owned fence operationId s
  rows : List.Forall₂ (RowOf turn)
    (turnMessages s.events operationId fence.attemptId turn.turnId) stamped
  ordered : stamped.Pairwise fun a b => a.1 < b.1
  below : ∀ stamp ∈ stamped, stamp.1 < s.nextSequence

section Appending

variable {now : Timestamp} {fence : AttemptFence} {operationId : OperationId} {turn : TurnRef}
  {s t : Store} {stamped : List (Nat × TurnEvent)} {event : NewAttemptEvent}

theorem storeAppend_ok (h : storeAppend now fence event s = .ok t) :
    ∃ context row, s.attemptContext now fence = some context ∧
      s.insertAttemptEvent context fence event = .ok (row, t) := by
  obtain ⟨⟨row,next⟩,appended,rfl⟩ := map_ok.mp h
  obtain ⟨context,found,inserted⟩ := Store.appendAttemptEvent_ok appended
  exact ⟨context,row,found,inserted⟩

theorem Owned.context (owned : Owned fence operationId s) {context : AttemptContextRow}
    (h : s.attemptContext now fence = some context) : context.operationId = operationId := by
  obtain ⟨a,_,_,found,_,_,rfl⟩ := Store.attemptContext_some.mp h
  have same := (AttemptRow.holds_iff.mp (find?_some found)).1
  exact owned a (mem_of_find?_eq_some found) (congrArg AttemptFence.attemptId same)

theorem turnMessages_concat (events : List JobEventRow) (row : JobEventRow)
    (operationId : OperationId) (attemptId : AttemptId) (turnId : String) :
    turnMessages (events ++ [row]) operationId attemptId turnId =
      turnMessages events operationId attemptId turnId ++
        turnMessages [row] operationId attemptId turnId :=
  filter_append ..

theorem turnMessages_silent {row : JobEventRow} (silent : isMessageKind row.kind = false)
    (operationId : OperationId) (attemptId : AttemptId) (turnId : String) :
    turnMessages [row] operationId attemptId turnId = [] := by
  simp [turnMessages,silent]

theorem Stored.silent (h : Stored fence operationId turn s stamped)
    (silent : isMessageKind event.kind = false) (appended : storeAppend now fence event s = .ok t) :
    Stored fence operationId turn t stamped := by
  obtain ⟨context,row,-,inserted⟩ := storeAppend_ok appended
  simp only [Store.insertAttemptEvent,bind_ok] at inserted
  obtain ⟨_,_,_,_,inserted⟩ := inserted
  split at inserted
  · cases inserted
    refine ⟨h.owned,?_,h.ordered,fun stamp member => Nat.lt_succ_of_lt (h.below stamp member)⟩
    have kept := h.rows
    rwa [← append_nil (turnMessages _ _ _ _),
      ← @turnMessages_silent (attemptEventRow context.jobId context.operationId fence.attemptId
        event s.nextSequence) silent,← turnMessages_concat] at kept
  · simp only [bind_ok,pure_ok,Prod.mk.injEq] at inserted
    obtain ⟨_,_,_,rfl⟩ := inserted
    exact ⟨h.owned,h.rows,h.ordered,
      fun stamp member => Nat.lt_succ_of_lt (h.below stamp member)⟩

theorem Stored.message (h : Stored fence operationId turn s stamped) {message : TurnEvent}
    (spoken : message.spoken = true) (kind : isMessageKind message.kind = true)
    (appended : storeAppend now fence (message.appended turn) s = .ok t) :
    Stored fence operationId turn t (stamped ++ [(s.nextSequence, message)]) := by
  obtain ⟨context,row,found,inserted⟩ := storeAppend_ok appended
  simp only [Store.insertAttemptEvent,bind_ok] at inserted
  obtain ⟨_,_,_,_,inserted⟩ := inserted
  have fresh : deduplicated context.jobId (message.appended turn).deduplicationKey s.events =
      none := rfl
  rw [fresh] at inserted
  cases inserted
  have written : RowOf turn (attemptEventRow context.jobId context.operationId fence.attemptId
      (message.appended turn) s.nextSequence) (s.nextSequence, message) :=
    ⟨rfl,rfl,rfl,spoken⟩
  have turned : (attemptEventRow context.jobId context.operationId fence.attemptId
      (message.appended turn) s.nextSequence).payload.text "turnId" = some turn.turnId :=
    Journal.correlate_turnId _ _
  have own : turnMessages [attemptEventRow context.jobId context.operationId fence.attemptId
      (message.appended turn) s.nextSequence] operationId fence.attemptId turn.turnId =
      [attemptEventRow context.jobId context.operationId fence.attemptId
        (message.appended turn) s.nextSequence] := by
    refine filter_eq_self.mpr fun other member => ?_
    cases mem_singleton.mp member
    refine decide_eq_true ⟨congrArg some (h.owned.context found),rfl,turned,kind,?_⟩
    rw [written.named]
    rfl
  refine ⟨h.owned,?_,?_,?_⟩
  · change List.Forall₂ _ (turnMessages (s.events ++ [_]) _ _ _) _
    rw [turnMessages_concat,own]
    exact rel_append h.rows (.cons written .nil)
  · refine pairwise_append.mpr ⟨h.ordered,pairwise_singleton _ _,?_⟩
    intro stamp member other single
    cases mem_singleton.mp single
    exact h.below stamp member
  · intro stamp member
    rcases mem_append.mp member with old | new
    · exact Nat.lt_succ_of_lt (h.below stamp old)
    · cases mem_singleton.mp new
      exact Nat.lt_succ_self _

theorem Stored.events {events : List NewAttemptEvent} {new : List TurnEvent}
    (h : Stored fence operationId turn s stamped) (emits : Emits turn events new)
    (appended : events.foldlM (fun s event => storeAppend now fence event s) s = .ok t) :
    ∃ added, added.map Prod.snd = new ∧
      Stored fence operationId turn t (stamped ++ added) := by
  induction events generalizing s stamped new with
  | nil =>
    cases appended
    obtain rfl : new = [] := map_eq_nil_iff.mp emits.messages.symm
    exact ⟨[],rfl,by rwa [append_nil]⟩
  | cons event rest ih =>
    rw [foldlM_cons] at appended
    obtain ⟨next,first,later⟩ := bind_ok.mp appended
    have messages := emits.messages
    cases message : isMessageKind event.kind with
    | false =>
      rw [filter_cons_of_neg (by simp [message])] at messages
      exact ih (h.silent message first) ⟨messages,emits.spoken⟩ later
    | true =>
      rw [filter_cons_of_pos (by simp [message])] at messages
      cases new with
      | nil => cases messages
      | cons own others =>
        obtain ⟨rfl,others_eq⟩ := cons.inj messages
        have stored := h.message (emits.spoken own mem_cons_self) message first
        obtain ⟨added,names,final⟩ := ih stored
          ⟨others_eq,fun e member => emits.spoken e (mem_cons_of_mem _ member)⟩ later
        refine ⟨(s.nextSequence, own) :: added,by rw [map_cons,names],?_⟩
        rwa [append_assoc] at final

end Appending

namespace WriterSystem

variable {fence : AttemptFence} {operationId : OperationId} {active : ActiveTurn}
  {sys : WriterSystem} {inputs : List MessageInput}

structure Keeps (fence : AttemptFence) (operationId : OperationId) (active : ActiveTurn)
    (inputs : List MessageInput) (sys : WriterSystem) (stamped : List (Nat × TurnEvent)) :
    Prop where
  writes : Writes active sys.writer inputs (stamped.map Prod.snd)
  stored : Stored fence operationId active.ref sys.store stamped

variable {stamped : List (Nat × TurnEvent)}

theorem Keeps.perform {now : Timestamp} {added : List MessageInput}
    {action : List NewAttemptEvent × AttemptEventWriter} {result : AttemptEventWriter × Store}
    (h : Keeps fence operationId active inputs sys stamped)
    (continues : Writes.Continues active inputs added (stamped.map Prod.snd) action)
    (performed : perform (storeAppend now fence) action sys.store = .ok result) :
    ∃ later, Keeps fence operationId active (inputs ++ added) ⟨result.1, result.2⟩ later := by
  obtain ⟨new,emits,writes⟩ := continues
  obtain ⟨store,appended,finished⟩ := bind_ok.mp performed
  cases finished
  obtain ⟨more,names,stored⟩ := h.stored.events emits appended
  refine ⟨stamped ++ more,?_,stored⟩
  rw [map_append,names]
  exact writes

theorem Keeps.step {input : WriterStep} (h : Keeps fence operationId active inputs sys stamped)
    (allowed : Allowed fence operationId active sys input)
    (orderly : ∀ i ∈ input.input active, ¬ Completed i.item inputs) :
    ∃ later, Keeps fence operationId active (inputs ++ (input.input active).toList)
      (sys.step fence input) later := by
  obtain ⟨⟨next,applied⟩,admissible⟩ := allowed
  rw [WriterSystem.step,applied]
  cases input with
  | observe now notification =>
    obtain ⟨result,performed,rfl⟩ := map_ok.mp applied
    exact h.perform (h.writes.appends admissible orderly) performed
  | emit now kind payload =>
    obtain ⟨result,performed,rfl⟩ := map_ok.mp applied
    exact h.perform (h.writes.emit payload admissible) performed
  | other store =>
    cases applied
    refine ⟨stamped,⟨?_,admissible.owned,?_,h.stored.ordered,fun stamp member =>
      (h.stored.below stamp member).trans_le admissible.sequence⟩⟩
    · change Writes active sys.writer (inputs ++ []) _
      rw [append_nil]
      exact h.writes
    · change List.Forall₂ _ (turnMessages store.events operationId fence.attemptId active.turn) _
      rw [admissible.messages]
      exact h.stored.rows

theorem keeps_run {start : WriterSystem}
    (h : Keeps fence operationId active [] start []) (steps : List WriterStep)
    (allowed : Machine.Along (step fence) (Allowed fence operationId active) start steps)
    (orderly : Orderly (steps.filterMap (WriterStep.input active))) :
    ∃ stamped, Keeps fence operationId active (steps.filterMap (WriterStep.input active))
      (Machine.run (step fence) start steps) stamped := by
  induction steps using reverseRecOn with
  | nil => exact ⟨[],h⟩
  | append_singleton steps input ih =>
    obtain ⟨before,last,-⟩ := Machine.along_append.mp allowed
    have single : [input].filterMap (WriterStep.input active) = (input.input active).toList := by
      cases found : input.input active <;> simp [found]
    rw [filterMap_append,single] at orderly ⊢
    obtain ⟨earlier,-,apart⟩ := pairwise_append.mp orderly
    obtain ⟨stamped,kept⟩ := ih before earlier
    rw [Machine.run_append]
    refine kept.step last fun i member => ?_
    rintro ⟨done,inside,completes⟩
    exact apart done inside i (Option.mem_toList.mpr member) completes

theorem keeps_start {store : Store} (owned : Owned fence operationId store)
    (fresh : turnMessages store.events operationId fence.attemptId active.turn = []) :
    Keeps fence operationId active []
      ⟨new.activate active.thread active.turn, store⟩ [] where
  writes :=
    { active := rfl
      kept :=
        { known := fun _ held => absurd held (by simp [activate,
            new,TextCoalescer.new])
          text := fun _ => rfl
          streamed := fun item => by
            simp [activate,StreamedContent.default,streamedChars]
          closed := fun _ _ => rfl
          finished := rfl } }
  stored :=
    { owned := owned
      rows := by
        rw [ActiveTurn.ref,fresh]
        exact .nil
      ordered := .nil
      below := fun _ member => absurd member not_mem_nil }

theorem streamed_output_round_trip {store : Store} (owned : Owned fence operationId store)
    (fresh : turnMessages store.events operationId fence.attemptId active.turn = [])
    (steps : List WriterStep)
    (allowed : Machine.Along (step fence) (Allowed fence operationId active)
      ⟨new.activate active.thread active.turn, store⟩ steps)
    (orderly : Orderly (steps.filterMap (WriterStep.input active)))
    (role : StageOutputTurnRole) (reviewCycle : Nat) :
    let inputs := steps.filterMap (WriterStep.input active)
    let final := Machine.run (step fence)
      ⟨new.activate active.thread active.turn,store⟩ steps
    let output := reduceTurn final.store.events operationId
      ⟨fence.attemptId,active.turn,role,reviewCycle⟩
    output = lastAnswer inputs ∧
      (output = none ↔ ∀ item phase text, .completed item phase text ∈ inputs →
        Text.isBlank (resultingText inputs item text) = true) := by
  intro inputs final output
  obtain ⟨stamped,kept⟩ := keeps_run (keeps_start owned fresh) steps allowed orderly
  have reduced : output = lastAnswer inputs :=
    reduceMessages_eq kept.writes.kept orderly kept.stored.rows kept.stored.ordered
  refine ⟨reduced,?_⟩
  rw [reduced]
  exact lastAnswer_none

def spokenStore : Store :=
  { Store.empty with
    jobs := [⟨"job", "factory.task", .null, .running, 0⟩]
    operations := [⟨"plan", "job", 0, "factory.plan", .null, .running, 3, 0⟩]
    attempts :=
      [⟨"attempt", "plan", 1, .running, "worker", 1, 10, .newOperation, none, none, none⟩] }

def spokenSteps : List WriterStep :=
  [.observe 1 (.agentMessageDelta "thread" "turn" "final" "ship "),
    .observe 2 (.itemCompleted "thread" "turn" (.agentMessage "note" "looking" (some .commentary))),
    .emit 3 "environment.connected" (.object []),
    .observe 4 (.agentMessageDelta "thread" "turn" "final" "it"),
    .observe 5 (.itemCompleted "thread" "turn" (.agentMessage "final" "ship it" none))]

theorem streamed_output_round_trip_interleaved :
    reduceTurn (Machine.run (step ⟨"attempt", "worker", 1⟩)
      ⟨new.activate "thread" "turn", spokenStore⟩
      spokenSteps).store.events "plan" ⟨"attempt", "turn", .stage, 0⟩ = some "ship it" := by
  have owned : Owned ⟨"attempt","worker",1⟩ "plan" spokenStore := by
    intro a member _
    cases mem_singleton.mp member
    rfl
  have allowed : Machine.Along (step ⟨"attempt","worker",1⟩)
      (Allowed ⟨"attempt","worker",1⟩ "plan" ⟨"thread","turn"⟩)
      ⟨new.activate "thread" "turn",spokenStore⟩ spokenSteps :=
    ⟨⟨⟨_,rfl⟩,trivial⟩,⟨⟨_,rfl⟩,trivial⟩,⟨⟨_,rfl⟩,by decide⟩,⟨⟨_,rfl⟩,trivial⟩,
      ⟨⟨_,rfl⟩,trivial⟩,trivial⟩
  have orderly : Orderly (spokenSteps.filterMap (WriterStep.input ⟨"thread","turn"⟩)) := by
    unfold Orderly
    decide
  exact (@streamed_output_round_trip ⟨"attempt","worker",1⟩ "plan" ⟨"thread","turn"⟩ spokenStore
    owned rfl spokenSteps allowed orderly .stage 0).1.trans (by decide)

end WriterSystem

end Runtime
