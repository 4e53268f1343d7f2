import Mathlib.Data.List.Chain
import Factory.Runtime.ResumePoint
import Factory.Runtime.StageLoop

namespace Runtime

open Extension Result

inductive ReviewLoopStep where
  | run (plan : TurnPlan)
  | evaluate (checkpoint : StageCheckpoint) (mayRerun : Bool)
  deriving DecidableEq

structure LoopObservation where
  cancelled : Bool
  turn : Option TurnRef
  finished : Option Bool
  state : Option FactoryState
  retracted : Bool
  committed : Bool
  emitted : Bool

def concludeRemediation (config : ExecutorConfig) (parentThreadId : String) (state : FactoryState)
    (checkpoint : StageCheckpoint) : Next :=
  match state.review with
  | none => .fail
  | some report =>
    match checkpoint.turnRole with
    | .remediation =>
      if report.verdict = .approve then StageLoop.finalize checkpoint
      else
        match ReviewBaseline.capture state parentThreadId checkpoint.turnId with
        | .error _ => .fail
        | .ok baseline => .run ⟨.review, checkpoint.reviewCycle, reviewBaselines state baseline⟩
    | .review =>
      if report.verdict = .approve then StageLoop.finalize checkpoint
      else if config.maxReviewCycles ≤ checkpoint.reviewCycle then .fail
      else .run ⟨.remediation, checkpoint.reviewCycle + 1, ⟨state.revision, none, none⟩⟩
    | .stage => .fail

theorem StageLoop.conclude_remediate {config : ExecutorConfig} {s : StageLoop}
    (operation : s.operation = .remediate) (checkpoint : StageCheckpoint) :
    s.conclude config checkpoint =
      concludeRemediation config s.parentThreadId s.thread.load checkpoint := by
  rw [conclude,operation]
  rfl

namespace ReviewLoopStep

def completedTurn (parentThreadId : String) (plan : TurnPlan) (turn : TurnRef) :
    Except StageCheckpointError StageCheckpoint := do
  let lineage ← StageLineage.new parentThreadId turn.threadId turn.turnId
  StageCheckpoint.turnCompleted .remediate lineage plan.role plan.cycle plan.baselines

def retract (seen : LoopObservation) (checkpoint : StageCheckpoint)
    (next : Option ReviewLoopStep) : Option ReviewLoopStep :=
  if checkpoint.turnRole = .review ∧ seen.retracted = false then none else next

def follow (seen : LoopObservation) : Next → Option ReviewLoopStep
  | .run plan => if seen.emitted then some (.run plan) else none
  | .complete _ | .fail => none

def turnFinished (seen : LoopObservation) (checkpoint : StageCheckpoint) : Option Bool :=
  if checkpoint.phase = .awaitingTurn then seen.finished else some true

def evaluated (config : ExecutorConfig) (parentThreadId : String) (seen : LoopObservation)
    (checkpoint : StageCheckpoint) (mayRerun : Bool) : Option ReviewLoopStep := do
  let finished ← turnFinished seen checkpoint
  if finished then
    let state ← seen.state
    match validateCheckpointState config.order state checkpoint with
    | .error _ => retract seen checkpoint (if mayRerun then some (.run checkpoint.plan) else none)
    | .ok _ =>
      if checkpoint.turnRole = .review ∧ seen.committed = false then none
      else follow seen (concludeRemediation config parentThreadId state checkpoint)
  else retract seen checkpoint (some (.run checkpoint.plan))

def next (config : ExecutorConfig) (parentThreadId : String) (seen : LoopObservation) :
    ReviewLoopStep → Option ReviewLoopStep
  | .run plan =>
    if seen.cancelled then none
    else do
      let turn ← seen.turn
      let checkpoint ← (completedTurn parentThreadId plan turn).toOption
      pure (.evaluate checkpoint false)
  | .evaluate checkpoint mayRerun =>
    if seen.cancelled then none else evaluated config parentThreadId seen checkpoint mayRerun

def starts (seen : LoopObservation) : ReviewLoopStep → List TurnPlan
  | .run plan => if seen.cancelled then [] else [plan]
  | .evaluate _ _ => []

def plan : ReviewLoopStep → TurnPlan
  | .run plan => plan
  | .evaluate checkpoint _ => checkpoint.plan

def reruns : ReviewLoopStep → Bool
  | .run _ => true
  | .evaluate checkpoint mayRerun => mayRerun || checkpoint.phase = .awaitingTurn

end ReviewLoopStep

def firstStep (config : ExecutorConfig) (seen : LoopObservation) :
    ResumePoint → Option ReviewLoopStep
  | .current checkpoint _ => some (.evaluate checkpoint (checkpoint.phase ≠ .completed))
  | .fresh | .previous _ => do
      let state ← seen.state
      if StageLoop.approved config state then none
      else pure (.run ⟨.remediation, 1, ⟨state.revision, none, none⟩⟩)

def loopFrom (config : ExecutorConfig) (parentThreadId : String) :
    List LoopObservation → ReviewLoopStep → List TurnPlan × Option ReviewLoopStep
  | [], step => ([], some step)
  | seen :: rest, step =>
    match step.next config parentThreadId seen with
    | none => (step.starts seen, none)
    | some next =>
      let (turns, final) := loopFrom config parentThreadId rest next
      (step.starts seen ++ turns, final)

def runRemediationLoop (config : ExecutorConfig) (parentThreadId : String) (resume : ResumePoint)
    (first : LoopObservation) (seen : List LoopObservation) :
    List TurnPlan × Option ReviewLoopStep :=
  match firstStep config first resume with
  | none => ([], none)
  | some step => loopFrom config parentThreadId seen step

def TurnFollows (earlier later : TurnPlan) : Prop :=
  (earlier.role = .remediation ∧ later.role = .review ∧ later.cycle = earlier.cycle) ∨
    (earlier.role = .review ∧ later.role = .remediation ∧ later.cycle = earlier.cycle + 1)

def turnBudget (maxReviewCycles : Nat) (plan : TurnPlan) : Nat :=
  match plan.role with
  | .remediation => 2 * (maxReviewCycles - plan.cycle) + 2
  | .review => 2 * (maxReviewCycles - plan.cycle) + 1
  | .stage => 1

namespace ReviewLoopStep

variable {config : ExecutorConfig} {parentThreadId : String} {seen : LoopObservation}
  {step after : ReviewLoopStep} {checkpoint : StageCheckpoint}

def budget (maxReviewCycles : Nat) (step : ReviewLoopStep) : Nat :=
  turnBudget maxReviewCycles step.plan - (if step.reruns then 0 else 1)

def rank (maxReviewCycles : Nat) : ReviewLoopStep → Nat
  | .run plan => 2 * turnBudget maxReviewCycles plan
  | .evaluate checkpoint mayRerun =>
    2 * (evaluate checkpoint mayRerun).budget maxReviewCycles + 1

theorem turnBudget_pos (maxReviewCycles : Nat) (plan : TurnPlan) :
    0 < turnBudget maxReviewCycles plan := by
  unfold turnBudget
  split <;> omega

theorem completedTurn_plan {plan : TurnPlan} {turn : TurnRef}
    (h : completedTurn parentThreadId plan turn = .ok checkpoint) :
    checkpoint.plan = plan ∧ checkpoint.phase = .turnCompleted := by
  simp only [completedTurn,bind_ok,StageCheckpoint.turnCompleted] at h
  obtain ⟨lineage,-,built⟩ := h
  obtain ⟨rfl,-⟩ := StageCheckpoint.new_ok built
  exact ⟨rfl,rfl⟩

theorem finalize_stops (checkpoint : StageCheckpoint) {plan : TurnPlan} :
    StageLoop.finalize checkpoint ≠ .run plan := by
  unfold StageLoop.finalize
  split
  · exact nofun
  · exact nofun

theorem concludeRemediation_run {state : FactoryState} {plan : TurnPlan}
    (h : concludeRemediation config parentThreadId state checkpoint = .run plan) :
    TurnFollows checkpoint.plan plan ∧
      (plan.cycle = checkpoint.reviewCycle ∨ plan.cycle ≤ config.maxReviewCycles) ∧
      turnBudget config.maxReviewCycles plan + 1 =
        turnBudget config.maxReviewCycles checkpoint.plan := by
  unfold concludeRemediation at h
  cases current : state.review with
  | none => rw [current] at h; cases h
  | some report =>
    rw [current] at h
    dsimp only at h
    cases role : checkpoint.turnRole with
    | stage => rw [role] at h; cases h
    | remediation =>
      rw [role] at h
      dsimp only at h
      split at h
      · exact absurd h (finalize_stops checkpoint)
      · split at h
        · cases h
        · cases h
          refine ⟨.inl ⟨role,rfl,rfl⟩,.inl rfl,?_⟩
          simp only [turnBudget,StageCheckpoint.plan,role]
    | review =>
      rw [role] at h
      dsimp only at h
      split at h
      · exact absurd h (finalize_stops checkpoint)
      · split at h
        · cases h
        · rename_i below
          cases h
          refine ⟨.inr ⟨role,rfl,rfl⟩,.inr (by simp only; omega),?_⟩
          simp only [turnBudget,StageCheckpoint.plan,role]
          omega

theorem retract_some {next : Option ReviewLoopStep}
    (h : retract seen checkpoint next = some after) : next = some after := by
  unfold retract at h
  split at h
  · cases h
  · exact h

variable {mayRerun : Bool} {maxReviewCycles : Nat}

theorem evaluated_run (h : evaluated config parentThreadId seen checkpoint mayRerun = some after) :
    ∃ plan, after = .run plan ∧
      ((plan = checkpoint.plan ∧ (evaluate checkpoint mayRerun).reruns = true) ∨
        ∃ state, concludeRemediation config parentThreadId state checkpoint = .run plan) := by
  unfold evaluated at h
  obtain ⟨finished,observed,h⟩ := Option.bind_eq_some_iff.mp h
  cases finished with
  | false =>
    have again := retract_some h
    cases again
    refine ⟨checkpoint.plan,rfl,.inl ⟨rfl,?_⟩⟩
    unfold turnFinished at observed
    split at observed
    · rename_i awaiting
      simp [reruns,awaiting]
    · cases observed
  | true =>
    obtain ⟨state,-,h⟩ := Option.bind_eq_some_iff.mp h
    split at h
    · have again := retract_some h
      cases mayRerun with
      | false => cases again
      | true =>
        cases again
        exact ⟨checkpoint.plan,rfl,.inl ⟨rfl,rfl⟩⟩
    · split at h
      · cases h
      · cases concluded : concludeRemediation config parentThreadId state checkpoint with
        | complete | fail => rw [concluded] at h; cases h
        | run plan =>
          rw [concluded,follow] at h
          split at h
          · cases h
            exact ⟨plan,rfl,.inr ⟨state,concluded⟩⟩
          · cases h

theorem next_run {plan : TurnPlan} (h : (run plan).next config parentThreadId seen = some after) :
    seen.cancelled = false ∧ ∃ checkpoint, after = .evaluate checkpoint false ∧
      checkpoint.plan = plan ∧ after.reruns = false := by
  rw [next] at h
  split at h
  · cases h
  · rename_i live
    obtain ⟨turn,-,h⟩ := Option.bind_eq_some_iff.mp h
    obtain ⟨checkpoint,built,h⟩ := Option.bind_eq_some_iff.mp h
    cases h
    obtain ⟨same,phase⟩ := completedTurn_plan (toOption_some built)
    exact ⟨by simpa using live,checkpoint,rfl,same,by simp [reruns,phase]⟩

theorem next_evaluate
    (h : (evaluate checkpoint mayRerun).next config parentThreadId seen = some after) :
    ∃ plan, after = .run plan ∧
      ((plan = checkpoint.plan ∧ (evaluate checkpoint mayRerun).reruns = true) ∨
        (TurnFollows checkpoint.plan plan ∧
          (plan.cycle = checkpoint.reviewCycle ∨ plan.cycle ≤ config.maxReviewCycles) ∧
          turnBudget config.maxReviewCycles plan + 1 =
            turnBudget config.maxReviewCycles checkpoint.plan)) := by
  rw [next] at h
  split at h
  · cases h
  · obtain ⟨plan,rfl,again | ⟨state,concluded⟩⟩ := evaluated_run h
    · exact ⟨plan,rfl,.inl again⟩
    · exact ⟨plan,rfl,.inr (concludeRemediation_run concluded)⟩

def Leads : ReviewLoopStep → TurnPlan → Prop
  | .run plan, first => first = plan
  | .evaluate checkpoint mayRerun, first =>
    ((evaluate checkpoint mayRerun).reruns = true ∧ first = checkpoint.plan) ∨
      TurnFollows checkpoint.plan first

structure Invocation (config : ExecutorConfig) (step : ReviewLoopStep) (iterations : Nat)
    (turns : List TurnPlan) (final : Option ReviewLoopStep) : Prop where
  few : turns.length ≤ step.budget config.maxReviewCycles
  chain : turns.IsChain TurnFollows
  leads : ∀ plan ∈ turns.head?, step.Leads plan
  capped : ∀ plan ∈ turns, plan.cycle ≤ config.maxReviewCycles ∨ plan.cycle = step.plan.cycle
  returns : final ≠ none → iterations ≤ step.rank config.maxReviewCycles

variable {turns : List TurnPlan} {final : Option ReviewLoopStep} {iterations : Nat}

theorem budget_run (maxReviewCycles : Nat) (plan : TurnPlan) :
    (run plan).budget maxReviewCycles = turnBudget maxReviewCycles plan := rfl

theorem budget_last (last : step.reruns = false) :
    step.budget maxReviewCycles = turnBudget maxReviewCycles step.plan - 1 := by
  rw [budget,last]
  rfl

theorem budget_rerun (again : step.reruns = true) :
    step.budget maxReviewCycles = turnBudget maxReviewCycles step.plan := by
  rw [budget,again]
  rfl

theorem budget_le (maxReviewCycles : Nat) (step : ReviewLoopStep) :
    turnBudget maxReviewCycles step.plan ≤ step.budget maxReviewCycles + 1 := by
  unfold budget
  split <;> omega

theorem rank_le (maxReviewCycles : Nat) (step : ReviewLoopStep) :
    step.rank maxReviewCycles ≤ 2 * turnBudget maxReviewCycles step.plan + 1 := by
  cases step with
  | run plan => exact Nat.le_succ _
  | evaluate checkpoint mayRerun =>
    have bound : (evaluate checkpoint mayRerun).budget maxReviewCycles ≤
      turnBudget maxReviewCycles (evaluate checkpoint mayRerun).plan := Nat.sub_le _ _
    simp only [rank]
    omega

theorem Invocation.run {plan : TurnPlan} (h : Invocation config after iterations turns final)
    (moved : (run plan).next config parentThreadId seen = some after) :
    Invocation config (.run plan) (iterations + 1) ((ReviewLoopStep.run plan).starts seen ++ turns)
      final := by
  obtain ⟨live,checkpoint,rfl,same,last⟩ := next_run moved
  have positive := turnBudget_pos config.maxReviewCycles plan
  have kept : (evaluate checkpoint false).plan = plan := same
  have fewer := h.few
  rw [budget_last last,kept] at fewer
  have started : (ReviewLoopStep.run plan).starts seen = [plan] := by simp [starts,live]
  rw [started]
  refine ⟨?_,?_,?_,?_,?_⟩
  · rw [budget_run,List.length_append,List.length_singleton]
    omega
  · refine List.isChain_cons.mpr ⟨fun first hit => ?_,h.chain⟩
    rcases h.leads first hit with ⟨again,-⟩ | follows
    · cases last.symm.trans again
    · rw [same] at follows
      exact follows
  · intro first hit
    exact (Option.some.inj hit).symm
  · intro other mem
    rcases List.mem_cons.mp mem with rfl | later
    · exact .inr rfl
    · have bound := h.capped other later
      rw [kept] at bound
      exact bound
  · intro running
    have smaller := h.returns running
    simp only [rank] at smaller ⊢
    rw [budget_last last,kept] at smaller
    omega

theorem Invocation.evaluate (h : Invocation config after iterations turns final)
    (moved : (evaluate checkpoint mayRerun).next config parentThreadId seen = some after) :
    Invocation config (.evaluate checkpoint mayRerun) (iterations + 1) turns final := by
  obtain ⟨plan,rfl,again | ⟨follows,capped,smaller⟩⟩ := next_evaluate moved
  · obtain ⟨rfl,again⟩ := again
    have same : (ReviewLoopStep.evaluate checkpoint mayRerun).plan = checkpoint.plan := rfl
    refine ⟨?_,h.chain,fun first hit => .inl ⟨again,h.leads first hit⟩,h.capped,fun running => ?_⟩
    · rw [budget_rerun again,same]
      exact h.few
    · have bound := h.returns running
      simp only [rank] at bound ⊢
      rw [budget_rerun again,same]
      omega
  · have bound := budget_le config.maxReviewCycles (.evaluate checkpoint mayRerun)
    have same : (ReviewLoopStep.evaluate checkpoint mayRerun).plan = checkpoint.plan := rfl
    rw [same] at bound
    refine ⟨?_,h.chain,fun first hit => .inr ?_,fun other mem => ?_,fun running => ?_⟩
    · have fewer := h.few
      rw [budget_run] at fewer
      omega
    · rw [show first = plan from h.leads first hit]
      exact follows
    · rcases h.capped other mem with low | equal
      · exact .inl low
      · rcases capped with kept | low
        · exact .inr (equal.trans kept)
        · exact .inl (by rw [equal]; exact low)
    · have fewer := h.returns running
      simp only [rank] at fewer ⊢
      omega

theorem loopFrom_invocation (config : ExecutorConfig) (parentThreadId : String)
    (seen : List LoopObservation) (step : ReviewLoopStep) :
    Invocation config step seen.length (loopFrom config parentThreadId seen step).1
      (loopFrom config parentThreadId seen step).2 := by
  induction seen generalizing step with
  | nil => exact ⟨Nat.zero_le _,.nil,nofun,nofun,fun _ => Nat.zero_le _⟩
  | cons first rest ih =>
    rw [loopFrom]
    cases moved : step.next config parentThreadId first with
    | some after =>
      have tail := ih after
      cases step with
      | run plan => exact tail.run moved
      | evaluate checkpoint mayRerun => exact tail.evaluate moved
    | none =>
      cases step with
      | evaluate checkpoint mayRerun =>
        exact ⟨Nat.zero_le _,.nil,nofun,nofun,fun running => absurd rfl running⟩
      | run plan =>
        have positive := turnBudget_pos config.maxReviewCycles plan
        dsimp only [starts]
        split
        · exact ⟨Nat.zero_le _,.nil,nofun,nofun,fun running => absurd rfl running⟩
        · refine ⟨positive,.singleton _,fun other hit => (Option.some.inj hit).symm,
            fun other mem => .inr ?_,fun running => absurd rfl running⟩
          rw [List.mem_singleton.mp mem]
          rfl

end ReviewLoopStep

end Runtime
