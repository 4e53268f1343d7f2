import Factory.Extension.StageCalls
import Factory.Runtime.TaskLoop

namespace Runtime

open Extension Result StageCheckpoint Text FactoryToolCall

structure Buildable (operation : OperationKind) (plan : TurnPlan) : Prop where
  role : roleMatches operation plan.role plan.cycle = true
  generation : plan.role = .review ↔ plan.baselines.reviewGeneration.isSome = true
  parent : plan.role = .review ↔ plan.baselines.expectedReviewParentTurnId.isSome = true
  text : ∀ parentTurnId ∈ plan.baselines.expectedReviewParentTurnId,
    isBlank parentTurnId = false

structure StageLineage.Named (lineage : StageLineage) : Prop where
  parent : isBlank lineage.parentExecutionThreadId = false
  thread : isBlank lineage.activeThreadId = false
  turn : isBlank lineage.turnId = false

theorem requireCheckpointText_ok {field value : String} {u : Unit} :
    requireCheckpointText field value = .ok u ↔ isBlank value = false := by
  simp [requireCheckpointText,ensure_ok]

theorem StageLineage.validate_iff (lineage : StageLineage) :
    lineage.validate = .ok () ↔ lineage.Named := by
  simp only [StageLineage.validate,bind_ok,requireCheckpointText_ok,exists_const]
  exact ⟨fun ⟨parent,thread,turn⟩ => ⟨parent,thread,turn⟩,
    fun named => ⟨named.parent,named.thread,named.turn⟩⟩

theorem StageCheckpoint.validate_iff (checkpoint : StageCheckpoint) :
    checkpoint.validate = .ok () ↔
      checkpoint.lineage.Named ∧ Buildable checkpoint.operation checkpoint.plan := by
  simp only [validate,bind_ok,ensure_ok,exists_const]
  constructor
  · rintro ⟨⟨⟩,named,role,generation,expected,text⟩
    refine ⟨(StageLineage.validate_iff _).mp named,role,generation,expected,?_⟩
    intro parentTurnId (found : checkpoint.expectedReviewParentTurnId = some parentTurnId)
    rw [found] at text
    exact requireCheckpointText_ok.mp text
  · rintro ⟨named,built⟩
    refine ⟨(),(StageLineage.validate_iff _).mpr named,built.role,built.generation,
      built.parent,?_⟩
    split
    · rfl
    · next found => exact requireCheckpointText_ok.mpr (built.text _ found)

def buildTurn (operation : OperationKind) (parentThreadId : String)
    (phase : StageCheckpointPhase) (plan : TurnPlan) (turn : TurnRef) : StageCheckpoint :=
  build phase operation ⟨parentThreadId, turn.threadId, turn.turnId⟩ plan.role
    plan.cycle plan.baselines

structure TurnRef.Named (turn : TurnRef) : Prop where
  thread : isBlank turn.threadId = false
  turn : isBlank turn.turnId = false

section Building

variable {operation : OperationKind} {parentThreadId : String} {phase : StageCheckpointPhase}
  {plan : TurnPlan} {turn : TurnRef} {checkpoint : StageCheckpoint}

theorem lineageNew_ok (parent : isBlank parentThreadId = false) (named : turn.Named) :
    StageLineage.new parentThreadId turn.threadId turn.turnId =
      .ok ⟨parentThreadId, turn.threadId, turn.turnId⟩ := by
  simp only [StageLineage.new,bind_ok,pure_ok]
  exact ⟨(),(StageLineage.validate_iff _).mpr ⟨parent,named.thread,named.turn⟩,trivial⟩

theorem checkpointNew_ok (parent : isBlank parentThreadId = false) (named : turn.Named)
    (built : Buildable operation plan) :
    new operation ⟨parentThreadId, turn.threadId, turn.turnId⟩ phase plan.role
      plan.cycle plan.baselines = .ok (buildTurn operation parentThreadId phase plan turn) := by
  simp only [new,bind_ok,pure_ok]
  exact ⟨(),(validate_iff _).mpr ⟨⟨parent,named.thread,named.turn⟩,built⟩,
    rfl⟩

theorem ExecuteLoop.checkpointOf_ok {e : ExecuteLoop}
    (parent : isBlank e.parentThreadId = false) (named : turn.Named)
    (built : Buildable .execute plan) :
    e.checkpointOf phase plan turn = .ok (buildTurn .execute e.parentThreadId phase plan turn) := by
  rw [ExecuteLoop.checkpointOf,lineageNew_ok parent named]
  exact checkpointNew_ok parent named built

theorem StageLoop.checkpointOf_ok {s : StageLoop}
    (parent : isBlank s.parentThreadId = false) (named : turn.Named)
    (built : Buildable s.operation plan) :
    s.checkpointOf phase plan turn =
      .ok (buildTurn s.operation s.parentThreadId phase plan turn) := by
  rw [StageLoop.checkpointOf,lineageNew_ok parent named]
  exact checkpointNew_ok parent named built

theorem finalCheckpoint_ok (valid : checkpoint.validate = .ok ()) :
    finalCheckpoint checkpoint = .ok { checkpoint with phase := .completed } := by
  have same : build .completed checkpoint.operation checkpoint.lineage
      checkpoint.turnRole checkpoint.reviewCycle checkpoint.baselines =
        { checkpoint with phase := .completed } := rfl
  simp only [finalCheckpoint,completed,new,bind_ok,pure_ok]
  rw [same]
  exact ⟨(),(validate_iff _).mpr ((validate_iff _).mp valid),rfl⟩

end Building

namespace TaskLoop

variable {config : ExecutorConfig} {running : RunningTurn} {calls : List FactoryToolCall}
  {final : FactoryState}

theorem issues_named {t : TaskLoop} {turn : TurnRef} (h : t.issues turn = true) : turn.Named := by
  simp only [issues,Bool.and_eq_true,Bool.not_eq_true'] at h
  exact ⟨h.1.1.1,h.1.1.2⟩

theorem issues_fresh {t : TaskLoop} {turn : TurnRef} (h : t.issues turn = true) :
    ∀ earlier ∈ t.startedTurns, earlier.turnId ≠ turn.turnId := by
  simp only [issues,Bool.and_eq_true,List.all_map,List.all_eq_true] at h
  intro earlier member
  simpa using h.1.2 earlier member

theorem issues_detached {t : TaskLoop} {turn : TurnRef} {plan : TurnPlan}
    (h : t.issues turn = true) (starting : t.starting = some plan) (role : plan.role = .review) :
    turn.threadId ≠ t.parentThreadId := by
  simp only [issues,Bool.and_eq_true,starting,Option.all_some,role,Bool.or_eq_true] at h
  simpa using h.2

theorem call_accepted {thread : FactoryThreadState} {call : FactoryToolCall} {next : FactoryState}
    (fresh : thread.current = thread.load) (accepted : call.apply thread.load = .ok next) :
    (thread.call call).load = next ∧ (thread.call call).current = (thread.call call).load := by
  obtain ⟨loaded,current⟩ := @FactoryThreadState.call_load thread call fresh
  rw [accepted] at loaded
  exact ⟨loaded,current⟩

theorem executing_tool {e : ExecuteLoop} {call : FactoryToolCall} (turn : e.turn = some running)
    (unfinished : running.completed = false) (may : ExecuteLoop.mayCall call = true) :
    step config (.executing e) (.tool call) =
      .executing { e with thread := e.thread.call call } := by
  have during : e.step config (.tool call) = { e with thread := e.thread.call call } := by
    simp only [ExecuteLoop.step,ExecuteLoop.duringTurn,turn,unfinished,may,if_true,
      Bool.false_eq_true,if_false]
  exact congrArg TaskLoop.executing during

theorem reviewing_tool {s : StageLoop} {call : FactoryToolCall} (turn : s.turn = some running)
    (unfinished : running.completed = false) (offered : s.mayCall running call = true) :
    step config (.reviewing s) (.tool call) =
      .reviewing { s with thread := s.thread.call call } := by
  have during : s.step config (.tool call) = { s with thread := s.thread.call call } := by
    simp only [StageLoop.step,StageLoop.duringTurn,turn,unfinished,offered,if_true,
      Bool.false_eq_true,if_false]
  exact congrArg TaskLoop.reviewing during

theorem calls_accepted {place : FactoryThreadState → TaskLoop} {thread : FactoryThreadState}
    (state : ∀ thread, (place thread).state = thread.load) (fresh : thread.current = thread.load)
    (offered : ∀ call ∈ calls, ∀ thread, (place thread).offers call = true ∧
      step config (place thread) (.tool call) = place (thread.call call))
    (accepted : applyAll calls thread.load = .ok final) :
    Machine.Along (step config) Accepts (place thread) (calls.map .tool) ∧
      (Machine.run (step config) (place thread) (calls.map .tool)).state = final := by
  induction calls generalizing thread with
  | nil =>
    cases accepted
    exact ⟨trivial,state thread⟩
  | cons call rest ih =>
    rw [applyAll,List.foldlM_cons] at accepted
    obtain ⟨next,first,later⟩ := bind_ok.mp accepted
    obtain ⟨own,others⟩ := List.forall_mem_cons.mp offered
    obtain ⟨may,stepped⟩ := own thread
    obtain ⟨loaded,current⟩ := call_accepted fresh first
    have rest_runs := ih current others (by rw [loaded]; exact later)
    refine ⟨⟨⟨may,next,by rw [state]; exact first⟩,?_⟩,?_⟩
    · rw [stepped]
      exact rest_runs.1
    · rw [List.map_cons,Machine.run,List.foldl_cons,stepped]
      exact rest_runs.2

theorem executing_calls {e : ExecuteLoop} (turn : e.turn = some running)
    (unfinished : running.completed = false) (fresh : e.thread.current = e.thread.load)
    (staged : ∀ call ∈ calls, call.stage = .execute)
    (accepted : applyAll calls e.thread.load = .ok final) :
    Machine.Along (step config) Accepts (.executing e) (calls.map .tool) ∧
      (Machine.run (step config) (.executing e) (calls.map .tool)).state = final := by
  refine @calls_accepted _ _ _ (fun thread => .executing { e with thread := thread }) e.thread
    (fun _ => rfl) fresh (fun call member thread => ?_) accepted
  have may : ExecuteLoop.mayCall call = true := by
    rw [ExecuteLoop.mayCall,staged call member]
    rfl
  exact ⟨by simp [offers,turn,may],executing_tool turn unfinished may⟩

theorem reviewing_calls {s : StageLoop} (turn : s.turn = some running)
    (unfinished : running.completed = false) (fresh : s.thread.current = s.thread.load)
    (offered : ∀ call ∈ calls, s.mayCall running call = true)
    (accepted : applyAll calls s.thread.load = .ok final) :
    Machine.Along (step config) Accepts (.reviewing s) (calls.map .tool) ∧
      (Machine.run (step config) (.reviewing s) (calls.map .tool)).state = final := by
  refine @calls_accepted _ _ _ (fun thread => .reviewing { s with thread := thread }) s.thread
    (fun _ => rfl) fresh (fun call member thread => ?_) accepted
  exact ⟨(congrArg (Option.any _) turn).trans (offered call member),
    reviewing_tool turn unfinished (offered call member)⟩

end TaskLoop

end Runtime
