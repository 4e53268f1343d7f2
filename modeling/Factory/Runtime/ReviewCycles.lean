import Factory.Runtime.RemediationLoop

namespace Runtime

open Extension Result StageCheckpoint Nat

def Ahead (latest : Option StageCheckpoint) (cycle : Nat) : Prop :=
  ∀ earlier ∈ latest, earlier.reviewCycle ≤ cycle

theorem Ahead.self (checkpoint : StageCheckpoint) :
    Ahead (some checkpoint) checkpoint.reviewCycle := by
  intro earlier hit
  cases hit
  exact le_refl _

theorem Ahead.le {latest : Option StageCheckpoint} {cycle later : Nat} (h : Ahead latest cycle)
    (le : cycle ≤ later) : Ahead latest later :=
  fun earlier hit => le_trans (h earlier hit) le

def AheadNext (latest : Option StageCheckpoint) : Next → Prop
  | .run plan => Ahead latest plan.cycle
  | .complete checkpoint =>
    checkpoint.phase = .completed ∧ Ahead latest checkpoint.reviewCycle
  | .fail => True

def CyclesAt (latest : Option StageCheckpoint) : Point → Prop
  | .idle | .recover | .enter | .mutated _ | .acknowledge _ | .cleanup | .cleanupRollback => True
  | .evaluate checkpoint _ => Ahead latest checkpoint.reviewCycle
  | .complete checkpoint => AheadNext latest (.complete checkpoint)
  | .rollback next | .commit next => AheadNext latest next
  | .run plan | .capture plan | .prepare plan | .start plan | .await plan _ | .wait plan _
  | .record plan _ => Ahead latest plan.cycle
  | .compare outcome => ∀ checkpoint ∈ outcome, Ahead latest checkpoint.reviewCycle

def Records (s next : StageLoop) : Prop :=
  (next.written = s.written ∧ next.latest = s.latest) ∨
    ∃ checkpoint, next.written = checkpoint :: s.written ∧
      (next.latest = some checkpoint ∨ next.latest = none ∧ checkpoint.phase = .completed) ∧
      Ahead s.latest checkpoint.reviewCycle

structure Cycled (s next : StageLoop) : Prop where
  records : Records s next
  operation : next.operation = s.operation ∨ next.point = .idle ∧ next.latest = none
  point : CyclesAt next.latest next.point

namespace StageLoop

variable {config : ExecutorConfig} {s next : StageLoop} {checkpoint : StageCheckpoint}

theorem cycled_same
    (same : (next.written, next.latest, next.operation) = (s.written, s.latest, s.operation))
    (point : CyclesAt s.latest next.point) : Cycled s next := by
  obtain ⟨written,latest,operation⟩ : _ ∧ _ ∧ _ := by simpa using same
  exact ⟨.inl ⟨written,latest⟩,.inl operation,by rw [latest]; exact point⟩

theorem cycled_abort (s : StageLoop) : Cycled s s.abort := cycled_same rfl trivial

theorem cycled_follow {plan : Next} (ahead : AheadNext s.latest plan)
    (same : (next.written, next.latest, next.operation) = (s.written, s.latest, s.operation)) :
    Cycled s (next.follow plan) := by
  cases plan with
  | run | complete => exact cycled_same same ahead
  | fail => exact cycled_same same trivial

theorem cycled_retract {role : StageTurnRole} {plan : Next} (ahead : AheadNext s.latest plan) :
    Cycled s (s.retract role plan) := by
  unfold retract
  split
  · exact cycled_same rfl ahead
  · exact cycled_follow ahead rfl

theorem cycled_turnError (s : StageLoop) (plan : TurnPlan) : Cycled s (s.turnError plan) := by
  unfold turnError
  split
  · exact cycled_same rfl nofun
  · exact cycled_abort s

theorem finalize_ahead {latest : Option StageCheckpoint}
    (ahead : Ahead latest checkpoint.reviewCycle) : AheadNext latest (finalize checkpoint) := by
  unfold finalize
  cases built : finalCheckpoint checkpoint with
  | error error => trivial
  | ok completed =>
    obtain ⟨rfl,-⟩ := new_ok built
    exact ⟨rfl,ahead⟩

theorem conclude_ahead (ahead : Ahead s.latest checkpoint.reviewCycle) :
    AheadNext s.latest (s.conclude config checkpoint) := by
  by_cases remediate : s.operation = .remediate
  · rw [conclude_remediate remediate]
    cases concluded : concludeRemediation config s.parentThreadId s.thread.load checkpoint with
    | fail => trivial
    | run plan =>
      obtain ⟨follows,-,-⟩ := ReviewLoopStep.concludeRemediation_run concluded
      refine ahead.le ?_
      rcases follows with ⟨-,-,same⟩ | ⟨-,-,later⟩
      · exact le_of_eq same.symm
      · rw [later]
        exact le_succ _
    | complete completed =>
      unfold concludeRemediation at concluded
      cases current : s.thread.load.review with
      | none => rw [current] at concluded; cases concluded
      | some report =>
        rw [current] at concluded
        dsimp only at concluded
        have finals := @finalize_ahead checkpoint s.latest ahead
        split at concluded
        · split at concluded
          · rw [← concluded]
            exact finals
          · split at concluded <;> cases concluded
        · split at concluded
          · rw [← concluded]
            exact finals
          · split at concluded <;> cases concluded
        · cases concluded
  · have other : s.conclude config checkpoint = finalize checkpoint := by
      unfold conclude
      split
      · rename_i same
        exact absurd same remediate
      · rfl
    rw [other]
    exact finalize_ahead ahead

theorem cycled_evaluate {mayRerun : Bool} (ahead : Ahead s.latest checkpoint.reviewCycle) :
    Cycled s (s.evaluate config checkpoint mayRerun) := by
  unfold evaluate
  split
  · exact cycled_retract ahead
  · split
    · cases mayRerun with
      | true => exact cycled_retract ahead
      | false => exact cycled_retract trivial
    · unfold accept
      dsimp only
      split
      · exact cycled_same rfl (conclude_ahead ahead)
      · exact cycled_follow (conclude_ahead ahead) rfl

theorem cycled_completeFromReview (fresh : s.latest = none) :
    Cycled s (s.completeFromReview config) := by
  unfold completeFromReview
  split
  · exact cycled_abort s
  · split
    · exact cycled_abort s
    · next completed built _ _ _ =>
      obtain ⟨rfl,-⟩ := new_ok built
      refine cycled_same rfl ⟨rfl,?_⟩
      rw [fresh]
      exact nofun

theorem cycled_enter (s : StageLoop) : Cycled s (s.enter config) := by
  unfold enter
  split
  · rename_i checkpoint known
    refine cycled_same rfl ?_
    rw [known]
    exact Ahead.self checkpoint
  · rename_i fresh
    split
    · split
      · exact cycled_completeFromReview fresh
      · refine cycled_same rfl ?_
        rw [fresh]
        exact nofun
    · split
      · exact cycled_abort s
      · refine cycled_same rfl ?_
        rw [fresh]
        exact nofun

variable {phase : StageCheckpointPhase}

theorem checkpointOf_cycle {plan : TurnPlan} {turn : TurnRef}
    (built : s.checkpointOf phase plan turn = .ok checkpoint) :
    checkpoint.reviewCycle = plan.cycle := by
  simp only [checkpointOf,bind_ok] at built
  obtain ⟨lineage,-,built⟩ := built
  obtain ⟨rfl,-⟩ := new_ok built
  rfl

theorem cycled_write {plan : TurnPlan} {turn : TurnRef} {point : Point}
    (ahead : Ahead s.latest plan.cycle) (built : s.checkpointOf phase plan turn = .ok checkpoint)
    (stays : CyclesAt (some checkpoint) point) :
    Cycled s { s.write checkpoint with point := point } := by
  refine ⟨.inr ⟨checkpoint,rfl,.inl rfl,?_⟩,.inl rfl,stays⟩
  rw [checkpointOf_cycle built]
  exact ahead

theorem cycled_compareTurn {outcome : Option StageCheckpoint}
    (ahead : ∀ checkpoint ∈ outcome, Ahead s.latest checkpoint.reviewCycle) :
    Cycled s (s.compareTurn outcome) := by
  unfold compareTurn
  split
  · exact cycled_abort s
  · dsimp only
    split
    · exact cycled_same rfl trivial
    · cases outcome with
      | none => exact cycled_same rfl trivial
      | some checkpoint => exact cycled_same rfl (ahead checkpoint rfl)

theorem cycled_resume
    (same : (next.written, next.latest, next.operation) = (s.written, s.latest, s.operation))
    (resumption : Resumption) : Cycled s (next.resume resumption) := by
  cases resumption with
  | enter | fail | stop => exact cycled_same same trivial

def iterates : LoopStep → Bool
  | .iterated _ _ => true
  | _ => false

section Cycling

variable (h : CyclesAt s.latest s.point)

include h

theorem cycled_advance : Cycled s (s.advance config) := by
  have stays := h
  unfold advance
  generalize s.point = here at h ⊢
  cases here with
  | idle | start => exact cycled_same rfl stays
  | recover | cleanup =>
    refine cycled_same rfl ?_
    dsimp only
    split <;> trivial
  | enter => exact cycled_enter s
  | evaluate checkpoint mayRerun => exact cycled_evaluate h
  | rollback plan | commit plan => exact cycled_follow h rfl
  | run plan =>
    dsimp only
    split
    · exact cycled_same rfl h
    · exact cycled_same rfl h
  | capture plan =>
    dsimp only [captureSnapshot]
    split
    · exact cycled_same rfl trivial
    · exact cycled_same rfl h
  | prepare plan => exact cycled_same rfl h
  | await plan turn =>
    dsimp only
    split
    · exact cycled_turnError s plan
    · rename_i checkpoint built
      refine cycled_write h built ?_
      intro earlier hit
      cases hit
      exact le_of_eq (checkpointOf_cycle built)
  | wait plan turn =>
    dsimp only
    split
    · exact cycled_same rfl h
    · exact cycled_same rfl stays
  | record plan turn =>
    dsimp only
    split
    · exact cycled_turnError s plan
    · rename_i checkpoint built
      refine cycled_write h built ?_
      split
      · intro other hit
        cases hit
        exact Ahead.self checkpoint
      · exact Ahead.self checkpoint
  | compare outcome => exact cycled_compareTurn h
  | mutated | cleanupRollback => exact cycled_same rfl trivial
  | acknowledge resumption =>
    dsimp only
    split
    · exact cycled_resume rfl _
    · rename_i worktree cleared
      exact @cycled_resume s { s with worktree := worktree } rfl resumption
  | complete checkpoint =>
    exact ⟨.inr ⟨checkpoint,rfl,.inr ⟨rfl,h.1⟩,h.2⟩,.inr ⟨rfl,rfl⟩,trivial⟩

theorem cycled_failed : Cycled s s.failed := by
  unfold failed
  split
  · exact cycled_same rfl h
  iterate 4 · exact cycled_turnError s _
  iterate 4 · exact cycled_same rfl trivial
  exact cycled_abort s

theorem cycled_beginTurn (turn : TurnRef) :
    Cycled s (s.beginTurn turn) := by
  unfold beginTurn
  split
  · rename_i plan point
    split
    · exact cycled_turnError s plan
    · split
      · exact cycled_same rfl h
      · rw [point] at h
        exact cycled_same rfl h
  · exact cycled_same rfl h

theorem cycled_duringTurn (f : RunningTurn → FactoryThreadState → FactoryThreadState) :
    Cycled s (s.duringTurn f) := by
  unfold duringTurn
  split
  · exact cycled_same rfl h
  · split
    · exact cycled_same rfl h
    · exact cycled_same rfl h

theorem cycled_step {input : LoopStep} (same : iterates input = false) :
    Cycled s (s.step config input) := by
  cases input with
  | attempt =>
    dsimp only [step]
    split
    · exact cycled_same rfl trivial
    · exact cycled_same rfl h
  | advance => exact cycled_advance h
  | started turn => exact cycled_beginTurn h turn
  | fail => exact cycled_failed h
  | crash => exact cycled_same rfl trivial
  | prompt | tool | activity => exact cycled_duringTurn h _
  | mutate => exact cycled_same rfl h
  | finish =>
    dsimp only [step]
    split
    · exact cycled_same rfl h
    · exact cycled_same rfl h
  | iterated previous activities => cases same

end Cycling

theorem waiting_step {input : LoopStep} (idle : s.point = .idle) (waits : s.operation = .iterate)
    (same : iterates input = false) :
    (s.step config input).point = .idle ∧ (s.step config input).latest = s.latest := by
  have during : ∀ f, (s.duringTurn f).point = .idle ∧ (s.duringTurn f).latest = s.latest := by
    intro f
    unfold duringTurn
    split
    · exact ⟨idle,rfl⟩
    · split <;> exact ⟨idle,rfl⟩
  cases input with
  | attempt => simp [step,idle,waits]
  | advance => simp [step,advance,idle]
  | started turn => simp [step,beginTurn,idle]
  | fail => simp [step,failed,idle]
  | crash => exact ⟨rfl,rfl⟩
  | prompt | tool | activity => exact during _
  | mutate => exact ⟨idle,rfl⟩
  | finish =>
    dsimp only [step]
    split <;> exact ⟨idle,rfl⟩
  | iterated previous activities => cases same

def Rises (later earlier : StageCheckpoint) : Prop :=
  earlier.phase = .completed ∨ earlier.reviewCycle ≤ later.reviewCycle

structure Recorded (s : StageLoop) : Prop where
  rising : s.written.IsChain Rises
  latest : ∀ newest ∈ s.written.head?,
    s.latest = some newest ∨ s.latest = none ∧ newest.phase = .completed
  waiting : s.operation = .iterate → s.point = .idle ∧ s.latest = none
  point : CyclesAt s.latest s.point

theorem Recorded.step (h : s.Recorded) (input : LoopStep) : (s.step config input).Recorded := by
  cases iterated : iterates input with
  | false =>
    obtain ⟨records,operation,point⟩ := @cycled_step config s h.point input iterated
    have waiting : (s.step config input).operation = .iterate →
        (s.step config input).point = .idle ∧ (s.step config input).latest = none := by
      intro waits
      rcases operation with same | settled
      · obtain ⟨idle,unset⟩ := h.waiting (same.symm.trans waits)
        have stays := @waiting_step config s input idle (same.symm.trans waits) iterated
        exact ⟨stays.1,stays.2.trans unset⟩
      · exact settled
    rcases records with ⟨written,latest⟩ | ⟨checkpoint,written,latest,ahead⟩
    · exact ⟨by rw [written]; exact h.rising,by rw [written,latest]; exact h.latest,waiting,point⟩
    · refine ⟨?_,?_,waiting,point⟩
      · rw [written,List.isChain_cons]
        refine ⟨fun newest hit => ?_,h.rising⟩
        rcases h.latest newest hit with current | ⟨_,completed⟩
        · exact .inr (ahead newest current)
        · exact .inl completed
      · rw [written]
        rintro newest ⟨⟩
        exact latest
  | true =>
    cases input with
    | iterated previous activities =>
      dsimp only [StageLoop.step]
      split
      · next idle =>
          obtain ⟨_,unset⟩ := h.waiting idle.2.1
          refine ⟨List.isChain_cons.mpr ⟨fun newest hit => ?_,h.rising⟩,?_,nofun,?_⟩
          · rcases h.latest newest hit with current | ⟨_,completed⟩
            · cases unset.symm.trans current
            · exact .inl completed
          · rintro newest ⟨⟩
            exact .inr ⟨rfl,idle.2.2⟩
          · rw [idle.1]
            trivial
      · exact h
    | _ => cases iterated

theorem recorded_run (config : ExecutorConfig) (previous : StageCheckpoint) (state : FactoryState)
    (inputs : List LoopStep) :
    (Machine.run (StageLoop.step config) (.start previous state) inputs).Recorded := by
  refine Machine.run_invariant (fun _ input h => h.step input) ?_ inputs
  refine ⟨.singleton _,?_,nofun,trivial⟩
  rintro newest ⟨⟩
  exact .inr ⟨rfl,rfl⟩

theorem rising_operation {operation : List StageCheckpoint} (rising : operation.IsChain Rises)
    (unsettled : ∀ checkpoint ∈ operation.tail, checkpoint.phase ≠ .completed) :
    (operation.map (·.reviewCycle)).Pairwise (· ≥ ·) := by
  refine List.IsChain.pairwise ?_
  induction operation with
  | nil => exact .nil
  | cons newest older ih =>
    obtain ⟨first,rest⟩ := List.isChain_cons.mp rising
    rw [List.map_cons,List.isChain_cons]
    refine ⟨fun cycle hit => ?_,ih rest fun other hit => unsettled other (List.mem_of_mem_tail hit)⟩
    rw [List.head?_map,Option.mem_map] at hit
    obtain ⟨earlier,held,rfl⟩ := hit
    exact (first earlier held).resolve_left (unsettled earlier (List.mem_of_mem_head? held))

end StageLoop

open ReviewLoopStep

variable {resume : ResumePoint}

theorem resumed_checkpoint {context : OperationExecutionContext} {root revision : String}
    (decoded : ResumePoint.decode context .remediate root revision = .ok resume)
    {checkpoint : StageCheckpoint} {correlationId : Option Coordinator.CorrelationRecordId}
    (current : resume = .current checkpoint correlationId) :
    0 < checkpoint.reviewCycle := by
  subst current
  unfold ResumePoint.decode at decoded
  split at decoded
  · simp only [bind_ok,pure_ok] at decoded
    obtain ⟨_,_,impossible⟩ := decoded
    cases impossible
  · rename_i record chosen
    simp only [ResumePoint.decodeRecord,bind_ok] at decoded
    obtain ⟨_,_,decoded⟩ := decoded
    cases parsed : decode record with
    | error error =>
      rw [parsed] at decoded
      cases decoded
    | ok found =>
      rw [parsed] at decoded
      change (if found.operation = .remediate then _ else _) = _ at decoded
      split at decoded
      · rename_i stage
        cases decoded
        obtain ⟨valid,-⟩ := decode_ok parsed
        simp only [validate,bind_ok,ensure_ok,stage] at valid
        obtain ⟨_,_,_,matched,-⟩ := valid
        cases cycle : checkpoint.reviewCycle with
        | succ n => exact succ_pos n
        | zero =>
          rw [cycle] at matched
          cases role : checkpoint.turnRole <;> rw [role] at matched <;> cases matched
      · simp only [bind_ok,pure_ok] at decoded
        obtain ⟨_,_,_,_,impossible⟩ := decoded
        cases impossible

theorem turnBudget_le {maxReviewCycles : Nat} {plan : TurnPlan} (counted : 0 < plan.cycle) :
    turnBudget maxReviewCycles plan ≤ 2 * max 1 maxReviewCycles := by
  unfold turnBudget
  split <;> omega

theorem cycles_nondecreasing {turns : List TurnPlan} (chain : turns.IsChain TurnFollows) :
    (turns.map (·.cycle)).Pairwise (· ≤ ·) := by
  refine List.IsChain.pairwise
    (List.isChain_map _ |>.mpr (chain.imp fun earlier later follows => ?_))
  rcases follows with ⟨-,-,same⟩ | ⟨-,-,next⟩
  · exact le_of_eq same.symm
  · rw [next]
    exact le_succ _

def resumedCycle : ResumePoint → Option Nat
  | .current checkpoint _ => some checkpoint.reviewCycle
  | .fresh | .previous _ => none

theorem firstStep_cycle {config : ExecutorConfig} {first : LoopObservation} {step : ReviewLoopStep}
    (entered : firstStep config first resume = some step) :
    step.plan.cycle = 1 ∨ resumedCycle resume = some step.plan.cycle := by
  cases resume with
  | current checkpoint correlationId =>
    cases entered
    exact .inr rfl
  | fresh | previous =>
    obtain ⟨state,-,entered⟩ := Option.bind_eq_some_iff.mp entered
    split at entered
    · cases entered
    · cases entered
      exact .inl rfl

theorem remediation_loop_bounded (config : ExecutorConfig) (parentThreadId : String)
    {context : OperationExecutionContext} {root revision : String} {resume : ResumePoint}
    (decoded : ResumePoint.decode context .remediate root revision = .ok resume) :
    (∀ (first : LoopObservation) (seen : List LoopObservation),
      let turns := (runRemediationLoop config parentThreadId resume first seen).1
      turns.length ≤ 2 * max 1 config.maxReviewCycles ∧
        (4 * max 1 config.maxReviewCycles + 1 < seen.length →
          (runRemediationLoop config parentThreadId resume first seen).2 = none) ∧
        (turns.map (·.cycle)).Pairwise (· ≤ ·) ∧
        turns.IsChain TurnFollows ∧
        ∀ plan ∈ turns, plan.cycle ≤ config.maxReviewCycles ∨ plan.cycle = 1 ∨
          resumedCycle resume = some plan.cycle) ∧
      ∀ (previous : StageCheckpoint) (state : FactoryState) (inputs : List LoopStep)
        (later operation earlier : List StageCheckpoint),
        (Machine.run (StageLoop.step config) (.start previous state) inputs).written =
            later ++ operation ++ earlier →
          (∀ checkpoint ∈ operation.tail, checkpoint.phase ≠ .completed) →
            (operation.map (·.reviewCycle)).Pairwise (· ≥ ·) := by
  constructor
  · intro first seen
    unfold runRemediationLoop
    cases entered : firstStep config first resume with
    | none => exact ⟨zero_le _,fun _ => rfl,.nil,.nil,nofun⟩
    | some step =>
      have invocation := loopFrom_invocation config parentThreadId seen step
      have cycle := firstStep_cycle entered
      have counted : 0 < step.plan.cycle := by
        rcases cycle with one | resumed
        · rw [one]
          exact one_pos
        · cases resume with
          | current checkpoint correlationId =>
            cases entered
            exact resumed_checkpoint decoded rfl
          | fresh | previous => cases resumed
      have budget := @turnBudget_le config.maxReviewCycles step.plan counted
      refine ⟨le_trans invocation.few (le_trans (sub_le _ _) budget),fun long => ?_,
        cycles_nondecreasing invocation.chain,invocation.chain,fun plan mem => ?_⟩
      · by_contra running
        have ranked := invocation.returns running
        have small := rank_le config.maxReviewCycles step
        omega
      · rcases invocation.capped plan mem with low | same
        · exact .inl low
        · rw [same]
          exact .inr cycle
  · intro previous state inputs later operation earlier written unsettled
    have rising := (StageLoop.recorded_run config previous state inputs).rising
    rw [written,List.append_assoc] at rising
    exact StageLoop.rising_operation rising.right_of_append.left_of_append unsettled

def interruptedReview : StageCheckpoint :=
  ⟨.remediate, "parent", "review", "turn", .awaitingTurn, .review, 5, 0, some 1, some "earlier"⟩

def interruptedContext : OperationExecutionContext where
  lease :=
    { selection :=
        { jobId := "job", operationId := "operation", operationKind := "remediate"
          cause := .leaseExpired, previousAttemptId := some "attempt", nextAttemptNumber := 2
          maxAttempts := 3
          resume := .fromCheckpoint ⟨"checkpoint", "attempt", 1, stageCheckpointKind,
            interruptedReview.toValue, some "/work", some "base", some "correlation"⟩
          checkpointCorrelation := none }
      attempt := ⟨"next", "operation", 2, .running, "owner", 1, 0, .leaseExpired, some "attempt",
        some "checkpoint", none⟩
      fence := ⟨"next", "owner", 1⟩ }
  job := ⟨"job", "factory.task", .null, .running, 0⟩
  operation := ⟨"operation", "job", 3, "remediate", .null, .running, 3, 0⟩
  workspace := none

def unfinishedTurn : LoopObservation :=
  ⟨false, some ⟨"review", "again"⟩, some false, some .default, true, true, true⟩

theorem remediation_loop_bounded_interrupted :
    (runRemediationLoop ⟨id, 3⟩ "parent" (.current interruptedReview (some "correlation"))
        unfinishedTurn (List.replicate 14 unfinishedTurn)).1.length ≤ 6 ∧
      (runRemediationLoop ⟨id, 3⟩ "parent" (.current interruptedReview (some "correlation"))
        unfinishedTurn (List.replicate 14 unfinishedTurn)).2 = none := by
  obtain ⟨few,returns,-⟩ := (@remediation_loop_bounded ⟨id,3⟩ "parent" interruptedContext "/work"
    "base" _ rfl).1 unfinishedTurn (List.replicate 14 unfinishedTurn)
  exact ⟨few,returns (by decide)⟩

end Runtime
