import Factory.Runtime.StageValidation
import Factory.Runtime.TaskCalls

namespace Runtime

open Extension Result StageCheckpoint ExecuteLoop

def Unfinished (state : FactoryState) : Prop :=
  ∃ unit ∈ state.workUnits, unit.status ≠ .completed

def Advances (baseline : Nat) (state : FactoryState) : Prop :=
  baseline ≤ state.revision ∧
    (Unfinished state ∨ baseline < state.revision ∨ state.revision = u64Max)

def Unreviewed (state : FactoryState) : Prop :=
  state.review = none ∧ state.reviewRecovery = none

structure Grows (units : List WorkUnitArgs) (state next : FactoryState) : Prop where
  bounded : state.revision ≤ u64Max
  planned : Planned units next
  unreviewed : Unreviewed next
  revision : next = state ∨ next.revision = saturatingSucc state.revision

section Growth

variable {units : List WorkUnitArgs} {state next : FactoryState} {baseline : Nat}

theorem Grows.advances (h : Grows units state next) (before : Advances baseline state) :
    Advances baseline next := by
  rcases h.revision with rfl | bumped
  · exact before
  · have low := before.1
    have high := h.bounded
    have moved : baseline < saturatingSucc state.revision ∨
        saturatingSucc state.revision = u64Max := by
      unfold saturatingSucc
      omega
    unfold Advances
    rw [bumped]
    refine ⟨?_,.inr moved⟩
    unfold saturatingSucc
    omega

theorem grows_activity (planned : Planned units state) (unreviewed : Unreviewed state)
    (activity : FactorySubagentActivity) (archive : Option Nat) :
    Grows units state { applyActivity activity archive state with
      revision := saturatingSucc (applyActivity activity archive state).revision } := by
  have kept := planned.activity activity archive
  obtain ⟨subagents,history,same⟩ := applyActivity_kept activity archive state
  rw [same] at kept ⊢
  exact ⟨planned.revision,kept,unreviewed,.inr rfl⟩

theorem grows_call (planned : Planned units state) (unreviewed : Unreviewed state)
    {call : FactoryToolCall} (staged : call.stage = .execute) :
    Grows units state ((call.apply state).toOption.getD state) := by
  cases outcome : call.apply state with
  | error e => exact ⟨planned.revision,planned,unreviewed,.inl rfl⟩
  | ok next =>
    cases call with
    | progress args =>
      have admissible : (FactoryToolCall.progress args).Admissible := trivial
      have kept := planned.step admissible outcome
      obtain ⟨changed,_,mutated,rfl⟩ := FactoryToolCall.apply_ok outcome
      obtain ⟨unit,-,-,-,-,rfl⟩ := Planned.progress_ok mutated
      exact ⟨planned.revision,kept,unreviewed,.inr rfl⟩
    | decompose | review | remediation => cases staged

theorem activity_load {thread : FactoryThreadState} (fresh : thread.current = thread.load)
    (activity : FactorySubagentActivity) (archive : Option Nat) :
    (thread.upsertActivity activity archive).load =
        { applyActivity activity archive thread.load with
          revision := saturatingSucc (applyActivity activity archive thread.load).revision } ∧
      (thread.upsertActivity activity archive).current =
        (thread.upsertActivity activity archive).load := by
  unfold FactoryThreadState.upsertActivity FactoryThreadState.update
  rw [fresh]
  exact ⟨rfl,rfl⟩

theorem StageResult.text_ok {α : Type} {result : StageResult α} {value : α} :
    result.text = .ok value ↔ result = .ok value := by
  cases result with
  | ok other => exact ⟨fun same => congrArg Except.ok (Except.ok.inj same),fun same =>
    congrArg Except.ok (Except.ok.inj same)⟩
  | error error => exact ⟨nofun,nofun⟩

theorem Buildable.stage {plan : TurnPlan} (h : Buildable .execute plan) : plan.role = .stage := by
  have role := h.role
  cases same : plan.role with
  | stage => rfl
  | remediation | review =>
    rw [same] at role
    simp [roleMatches] at role

end Growth

namespace ExecuteLoop

structure Plans (state : FactoryState) (plan : TurnPlan) : Prop where
  built : Buildable .execute plan
  advances : Advances plan.baselines.revision state

structure Wrote (state : FactoryState) (checkpoint : StageCheckpoint) : Prop where
  operation : checkpoint.operation = .execute
  phase : checkpoint.phase ≠ .completed
  valid : checkpoint.validate = .ok ()
  advances : Advances checkpoint.stateRevisionBaseline state

def At (state : FactoryState) (latest : Option StageCheckpoint) (running : Option RunningTurn) :
    ExecutePoint → Prop
  | .idle | .enter => running = none
  | .start plan => running = none ∧ Plans state plan
  | .await plan turn => Plans state plan ∧ turn.Named
  | .wait plan turn => Plans state plan ∧ turn.Named ∧ latest ≠ none
  | .record plan turn => Plans state plan ∧ turn.Named ∧ latest ≠ none ∧ running = none
  | .evaluate checkpoint => running = none ∧ latest = some checkpoint
  | .complete checkpoint => running = none ∧ latest ≠ none ∧ checkpoint.validate = .ok () ∧
      ∀ unit ∈ state.workUnits, unit.status = .completed

structure Sound (units : List WorkUnitArgs) (e : ExecuteLoop) : Prop where
  planned : Planned units e.thread.load
  unreviewed : Unreviewed e.thread.load
  current : e.thread.current = e.thread.load
  parent : Text.isBlank e.parentThreadId = false
  latest : ∀ checkpoint ∈ e.latest, Wrote e.thread.load checkpoint
  waiting : e.turn = none → e.latest = none → Unfinished e.thread.load
  point : At e.thread.load e.latest e.turn e.point

variable {units : List WorkUnitArgs} {e : ExecuteLoop} {config : ExecutorConfig}
  {checkpoint : StageCheckpoint} {plan : TurnPlan} {turn : TurnRef} {state next : FactoryState}

theorem Wrote.plans (h : Wrote state checkpoint) : Plans state checkpoint.plan := by
  have built := ((validate_iff checkpoint).mp h.valid).2
  rw [h.operation] at built
  exact ⟨built,h.advances⟩

theorem Wrote.grow (h : Wrote state checkpoint) (grows : Grows units state next) :
    Wrote next checkpoint :=
  ⟨h.operation,h.phase,h.valid,grows.advances h.advances⟩

theorem Plans.grow (h : Plans state plan) (grows : Grows units state next) : Plans next plan :=
  ⟨h.built,grows.advances h.advances⟩

theorem validateStage_ok {order : List String → List String}
    (permutes : ∀ ids, (order ids).Perm ids) (planned : Planned units state)
    (role : checkpoint.turnRole = .stage) (operation : checkpoint.operation = .execute) :
    validateCheckpointState order state checkpoint = .ok () ↔
      (∀ unit ∈ state.workUnits, unit.status = .completed) ∧
        checkpoint.stateRevisionBaseline < state.revision := by
  have advance : (if OperationKind.execute = .iterate then pure ()
      else requireAdvance state checkpoint) = requireAdvance state checkpoint := if_neg nofun
  simp only [validateCheckpointState,role,validateStageTurn,operation,bind_ok,
    OperationKind.validate,advance]
  constructor
  · rintro ⟨⟨⟩,executed,moved⟩
    exact ⟨(validateExecute_iff permutes planned).mp (StageResult.text_ok.mp executed),
      ensure_ok.mp moved⟩
  · rintro ⟨finished,moved⟩
    exact ⟨(),StageResult.text_ok.mpr ((validateExecute_iff permutes planned).mpr finished),
      ensure_ok.mpr moved⟩

section Keeping

variable (h : Sound units e)

include h

theorem Sound.goto {point : ExecutePoint} (at_point : At e.thread.load e.latest e.turn point) :
    Sound units { e with point := point } :=
  ⟨h.planned,h.unreviewed,h.current,h.parent,h.latest,h.waiting,at_point⟩

theorem Sound.abort (waiting : e.latest = none → Unfinished e.thread.load) :
    Sound units e.abort :=
  ⟨h.planned,h.unreviewed,rfl,h.parent,h.latest,fun _ => waiting,rfl⟩

theorem Sound.write {phase : StageCheckpointPhase} (plans : Plans e.thread.load plan)
    (named : turn.Named) (unsettled : phase ≠ .completed) {point : ExecutePoint}
    (at_point : At e.thread.load
      (some (buildTurn .execute e.parentThreadId phase plan turn)) e.turn point) :
    Sound units { e with
      latest := some (buildTurn .execute e.parentThreadId phase plan turn), point := point } := by
  refine ⟨h.planned,h.unreviewed,h.current,h.parent,fun checkpoint hit => ?_,fun _ => nofun,
    at_point⟩
  cases hit
  exact ⟨rfl,unsettled,(validate_iff _).mpr
    ⟨⟨h.parent,named.thread,named.turn⟩,plans.built⟩,plans.advances⟩

theorem Sound.during {running : RunningTurn} (active : e.turn = some running)
    {thread : FactoryThreadState} (current : thread.current = thread.load)
    (grows : Grows units e.thread.load thread.load) : Sound units { e with thread := thread } := by
  refine ⟨grows.planned,grows.unreviewed,current,h.parent,
    fun checkpoint hit => (h.latest checkpoint hit).grow grows,fun idle => ?_,?_⟩
  · exact absurd (active.symm.trans idle) (by simp)
  · have point := h.point
    cases at_point : e.point with
    | await | wait =>
      rw [at_point] at point
      exact ⟨point.1.grow grows,point.2⟩
    | record plan turn =>
      rw [at_point] at point
      exact absurd (active.symm.trans point.2.2.2) (by simp)
    | idle | enter =>
      rw [at_point] at point
      exact absurd (active.symm.trans point) (by simp)
    | start | evaluate | complete =>
      rw [at_point] at point
      exact absurd (active.symm.trans point.1) (by simp)

theorem Sound.finalize (latest : e.latest ≠ none) (idle : e.turn = none)
    (valid : checkpoint.validate = .ok ())
    (finished : ∀ unit ∈ e.thread.load.workUnits, unit.status = .completed) :
    Sound units (e.finalize checkpoint) := by
  rw [ExecuteLoop.finalize,finalCheckpoint_ok valid]
  refine h.goto ⟨idle,latest,?_,finished⟩
  exact (validate_iff _).mpr ((validate_iff _).mp valid)

end Keeping

section Deciding

variable (h : Sound units e) (permutes : ∀ ids, (config.order ids).Perm ids)

include h permutes

theorem Sound.evaluated (idle : e.turn = none) (latest : e.latest = some checkpoint) {u : Unit}
    (accepted : validateCheckpointState config.order e.thread.load checkpoint = .ok u) :
    Sound units (e.finalize checkpoint) := by
  have wrote := h.latest checkpoint latest
  refine h.finalize (by simp [latest]) idle wrote.valid ?_
  exact ((validateStage_ok permutes h.planned wrote.plans.built.stage wrote.operation).mp
    accepted).1

theorem Sound.enter (idle : e.turn = none) : Sound units (e.enter config) := by
  unfold ExecuteLoop.enter
  split
  · next fresh =>
    have waiting := h.waiting idle fresh
    exact h.goto ⟨idle,⟨rfl,by simp,by simp,by simp⟩,Nat.le_refl _,.inl waiting⟩
  · next checkpoint latest =>
    have wrote := h.latest checkpoint latest
    split
    · exact h.goto ⟨idle,wrote.plans⟩
    · split
      · next accepted => exact h.evaluated permutes idle latest accepted
      · rw [if_neg wrote.phase]
        exact h.goto ⟨idle,wrote.plans⟩

theorem Sound.advance :
    Sound units (e.advance config) := by
  have point := h.point
  unfold ExecuteLoop.advance
  cases at_point : e.point with
  | idle | start | complete => exact h
  | enter =>
    rw [at_point] at point
    exact h.enter permutes point
  | await plan turn =>
    rw [at_point] at point
    obtain ⟨plans,named⟩ := point
    dsimp only
    rw [checkpointOf_ok h.parent named plans.built]
    exact @Sound.write units e plan turn h .awaitingTurn plans named (by simp) (.wait plan turn)
      ⟨plans,named,by simp⟩
  | wait plan turn =>
    rw [at_point] at point
    obtain ⟨plans,named,written⟩ := point
    dsimp only
    split
    · exact ⟨h.planned,h.unreviewed,h.current,h.parent,h.latest,
        fun _ fresh => absurd fresh written,plans,named,written,rfl⟩
    · exact h
  | record plan turn =>
    rw [at_point] at point
    obtain ⟨plans,named,written,idle⟩ := point
    dsimp only
    rw [checkpointOf_ok h.parent named plans.built]
    exact @Sound.write units e plan turn h .turnCompleted plans named (by simp) (.evaluate _)
      ⟨idle,rfl⟩
  | evaluate checkpoint =>
    rw [at_point] at point
    obtain ⟨idle,latest⟩ := point
    dsimp only
    split
    · next accepted => exact h.evaluated permutes idle latest accepted
    · exact h.abort fun fresh => absurd (latest.symm.trans fresh) (by simp)

end Deciding

section Turning

variable (h : Sound units e)

include h

theorem Sound.duringTurn {f : FactoryThreadState → FactoryThreadState}
    (current : (f e.thread).current = (f e.thread).load)
    (grows : Grows units e.thread.load (f e.thread).load) : Sound units (e.duringTurn f) := by
  unfold ExecuteLoop.duringTurn
  split
  · exact h
  · next running active =>
    split
    · exact h
    · exact h.during active current grows

theorem Sound.tool (call : FactoryToolCall) :
    Sound units (e.step config (.tool call)) := by
  have kept : Grows units e.thread.load e.thread.load :=
    ⟨h.planned.revision,h.planned,h.unreviewed,.inl rfl⟩
  by_cases may : mayCall call = true
  · have staged : call.stage = .execute := of_decide_eq_true may
    obtain ⟨loaded,current⟩ := @FactoryThreadState.call_load e.thread call h.current
    simp only [step,may,if_true]
    refine h.duringTurn current ?_
    rw [loaded]
    exact grows_call h.planned h.unreviewed staged
  · simp only [step,may]
    exact h.duringTurn h.current kept

theorem Sound.started (named : turn.Named) :
    Sound units (e.beginTurn turn) := by
  unfold beginTurn
  split
  · next plan at_point =>
    have point := h.point
    rw [at_point] at point
    exact ⟨h.planned,h.unreviewed,h.current,h.parent,h.latest,nofun,point.2,named⟩
  · exact h

theorem Sound.finish : Sound units (e.step config .finish) := by
  simp only [step]
  split
  · exact h
  · next running active =>
    refine ⟨h.planned,h.unreviewed,h.current,h.parent,h.latest,by simp,?_⟩
    have point := h.point
    cases at_point : e.point with
    | await | wait =>
      rw [at_point] at point
      exact point
    | record plan turn =>
      rw [at_point] at point
      exact absurd (active.symm.trans point.2.2.2) (by simp)
    | idle | enter =>
      rw [at_point] at point
      exact absurd (active.symm.trans point) (by simp)
    | start | evaluate | complete =>
      rw [at_point] at point
      exact absurd (active.symm.trans point.1) (by simp)

theorem Sound.stop (sheltered : e.latest = none → e.turn.isSome = true → Unfinished e.thread.load) :
    Sound units e.abort := by
  refine h.abort fun fresh => ?_
  cases active : e.turn with
  | none => exact h.waiting active fresh
  | some running => exact sheltered fresh (by simp [active])

end Turning

theorem enter_decides (h : Sound units e) :
    (∃ checkpoint, (e.enter config).point = .complete checkpoint) ∨
      ∃ plan, (e.enter config).point = .start plan := by
  unfold enter
  split
  · exact .inr ⟨_,rfl⟩
  · next checkpoint latest =>
    have wrote := h.latest checkpoint latest
    split
    · exact .inr ⟨_,rfl⟩
    · split
      · rw [finalize,finalCheckpoint_ok wrote.valid]
        exact .inl ⟨_,rfl⟩
      · rw [if_neg wrote.phase]
        exact .inr ⟨_,rfl⟩

theorem finalize_load (e : ExecuteLoop) (checkpoint : StageCheckpoint) :
    (e.finalize checkpoint).thread.load = e.thread.load := by
  unfold finalize
  split
  · rfl
  · rfl

theorem enter_load (e : ExecuteLoop) : (e.enter config).thread.load = e.thread.load := by
  unfold enter
  split
  · rfl
  · split
    · rfl
    · split
      · exact finalize_load _ _
      · split
        · rfl
        · rfl

section Permuting

variable (h : Sound units e) (permutes : ∀ ids, (config.order ids).Perm ids)

include h permutes

theorem Sound.step {input : LoopStep} (admitted : (TaskLoop.executing e).admits input = true)
    (sheltered : (TaskLoop.executing e).Sheltered input) : Sound units (e.step config input) := by
  cases input with
  | attempt =>
    simp only [ExecuteLoop.step]
    split
    · next idle =>
      have point := h.point
      rw [idle] at point
      exact h.goto point
    · exact h
  | advance => exact h.advance permutes
  | started turn => exact h.started (TaskLoop.issues_named admitted)
  | fail | crash => exact h.stop sheltered
  | prompt =>
    refine h.duringTurn ?_ ⟨h.planned.revision,h.planned,h.unreviewed,.inl rfl⟩
    exact h.current
  | tool call => exact h.tool call
  | activity activity archive =>
    obtain ⟨loaded,current⟩ := activity_load h.current activity archive
    refine h.duringTurn current ?_
    rw [loaded]
    exact grows_activity h.planned h.unreviewed activity archive
  | finish => exact h.finish
  | mutate | iterated => exact h

theorem Sound.passable (starting : e.point = .start plan)
    (below : e.thread.load.revision < u64Max) :
    (TaskLoop.executing e).Passable config plan := by
  intro turn issued
  have point := h.point
  rw [starting] at point
  obtain ⟨-,plans⟩ := point
  have named := TaskLoop.issues_named issued
  refine ⟨_,checkpointOf_ok h.parent named plans.built,?_⟩
  obtain ⟨calls,final,finishes⟩ := h.planned.finishes
  have begun : TaskLoop.step config (.executing e) (.started turn) =
      .executing { e with
        turn := some ⟨turn,plan,false⟩
        started := turn :: e.started
        point := .await plan turn } := by
    have began : e.beginTurn turn = { e with
        turn := some ⟨turn,plan,false⟩
        started := turn :: e.started
        point := .await plan turn } := by
      simp only [beginTurn,starting]
    have admitted : (TaskLoop.executing e).admits (.started turn) = true := issued
    rw [TaskLoop.step,if_pos admitted]
    exact congrArg TaskLoop.executing began
  rw [begun]
  obtain ⟨along,reached⟩ := @TaskLoop.executing_calls config ⟨turn,plan,false⟩ calls final
    { e with
      turn := some ⟨turn,plan,false⟩
      started := turn :: e.started
      point := .await plan turn } rfl rfl h.current finishes.staged finishes.accepted
  refine ⟨calls,along,?_⟩
  rw [reached]
  refine (validateStage_ok permutes finishes.planned plans.built.stage rfl).mpr
    ⟨finishes.finished,?_⟩
  change plan.baselines.revision < final.revision
  obtain ⟨low,waiting | moved | saturated⟩ := plans.advances
  · have advanced := finishes.advanced waiting
    unfold saturatingSucc at advanced
    omega
  · exact moved.trans_le finishes.revision
  · omega

theorem Sound.unwedged (idle : e.point = .idle) (below : e.thread.load.revision < u64Max) :
    (TaskLoop.executing e).Unwedged config := by
  have quiet := h.point
  rw [idle] at quiet
  have entered : Sound units { e with point := .enter } := h.goto quiet
  have run : (TaskLoop.executing e).nextRun config 1 =
      .executing (ExecuteLoop.enter config { e with point := .enter }) := by
    have attempted : e.step config .attempt = { e with point := .enter } := by
      simp only [ExecuteLoop.step,idle,if_true]
    have first : TaskLoop.step config (.executing e) .attempt =
        .executing { e with point := .enter } := congrArg TaskLoop.executing attempted
    change TaskLoop.step config (TaskLoop.step config (.executing e) .attempt) .advance = _
    rw [first]
    rfl
  have sound := entered.enter permutes quiet
  have loaded := @enter_load config { e with point := .enter }
  refine ⟨1,?_⟩
  rw [run]
  rcases @enter_decides units _ config entered with ⟨checkpoint,complete⟩ | ⟨plan,starting⟩
  · exact .inl (by simp only [TaskLoop.completing,complete])
  · refine .inr (.inr ⟨plan,by simp only [TaskLoop.starting,starting],?_⟩)
    exact sound.passable permutes starting (by rw [loaded]; exact below)

end Permuting

end ExecuteLoop

end Runtime
