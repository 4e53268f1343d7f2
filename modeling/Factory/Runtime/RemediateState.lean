import Factory.Runtime.ReviewAccounting
import Factory.Runtime.TaskCalls

namespace Runtime

open Extension Result FactoryState Planned Nat

def restored (state : FactoryState) : FactoryState := state.rollbackReviewRecovery.2

def Level (state : FactoryState) : Prop :=
  state.currentGeneration ≤ (restored state).currentGeneration

structure Rises (state next : FactoryState) : Prop where
  revision : (restored state).revision ≤ (restored next).revision
  generation : (restored state).currentGeneration ≤ (restored next).currentGeneration

structure Sane (units : List WorkUnitArgs) (turnIds : List String) (running : Option RunningTurn)
    (state : FactoryState) : Prop where
  planned : Planned units state
  finished : ∀ unit ∈ state.workUnits, unit.status = .completed
  known : ∀ report ∈ state.review, ∃ id ∈ turnIds, report.recordedTurnId = some id
  few : ∀ report ∈ state.review, report.findings.length ≤ maxFindings
  approved : ∀ report ∈ state.review, report.verdict = .approve → state.remediations = []
  single : ∀ active ∈ running, active.plan.role = .review → ∀ report ∈ state.review,
    report.recordedTurnId = some active.turn.turnId → state.remediations = []

structure Grounds (units : List WorkUnitArgs) (turnIds : List String)
    (running : Option RunningTurn) (state : FactoryState) : Prop where
  own : Sane units turnIds running state
  base : Sane units turnIds running (restored state)
  generation : (restored state).currentGeneration ≤ state.currentGeneration
  revision : (restored state).revision ≤ state.revision

section Restoring

variable {state next : FactoryState} {baseline : FactoryReviewRecoveryBaseline}

theorem restored_none (h : state.reviewRecovery = none) : restored state = state := by
  rw [restored,rollbackReviewRecovery,h]

theorem restored_some (h : state.reviewRecovery = some baseline) :
    restored state = { state with
      reviewRecovery := none
      revision := baseline.revision
      review := baseline.review
      remediations := baseline.remediations
      reviewHistory := baseline.reviewHistory } := by
  rw [restored,rollbackReviewRecovery,h]

theorem restored_recovery (state : FactoryState) : (restored state).reviewRecovery = none := by
  unfold restored rollbackReviewRecovery
  split
  · assumption
  · rfl

theorem restored_restored (state : FactoryState) : restored (restored state) = restored state :=
  restored_none (restored_recovery state)

theorem restored_units (state : FactoryState) : (restored state).workUnits = state.workUnits := by
  unfold restored rollbackReviewRecovery
  split <;> rfl

theorem Rises.refl (state : FactoryState) : Rises state state := ⟨le_refl _,le_refl _⟩

theorem level_restored (h : state.reviewRecovery = none) : Level state := by
  rw [Level,restored_none h]

end Restoring

section Sanity

variable {units : List WorkUnitArgs} {turnIds more : List String} {running : Option RunningTurn}
  {state next : FactoryState}

theorem Sane.begin (h : Sane units turnIds none state) {active : RunningTurn}
    (fresh : active.turn.turnId ∉ turnIds) :
    Sane units (active.turn.turnId :: turnIds) (some active) state := by
  refine ⟨h.planned,h.finished,fun report hit => ?_,h.few,h.approved,?_⟩
  · obtain ⟨id,member,recorded⟩ := h.known report hit
    exact ⟨id,List.mem_cons_of_mem _ member,recorded⟩
  · intro own held _ report hit recorded
    obtain ⟨id,member,named⟩ := h.known report hit
    obtain rfl : active = own := Option.some.inj held
    have same := Option.some.inj (named.symm.trans recorded)
    exact absurd (same ▸ member) fresh

variable {active : RunningTurn}

section SaneStates

variable (h : Sane units turnIds running state)

include h

theorem Sane.congr (workUnits : next.workUnits = state.workUnits)
    (review : next.review = state.review) (remediations : next.remediations = state.remediations)
    (history : next.reviewHistory = state.reviewHistory) (grown : state.revision ≤ next.revision)
    (bounded : next.revision ≤ u64Max) : Sane units turnIds running next := by
  have generation : next.currentGeneration = state.currentGeneration := by
    rw [currentGeneration,currentGeneration,review,history]
  refine ⟨⟨h.planned.decomposed,?_,?_,?_,?_,?_,bounded⟩,?_,?_,?_,?_,?_⟩
  · rw [workUnits]
    exact h.planned.fixed
  · rw [workUnits]
    exact h.planned.summarised
  · rw [workUnits]
    exact h.planned.closed
  · rw [review]
    exact h.planned.reported
  · rw [generation]
    exact h.planned.generation.trans grown
  · rw [workUnits]
    exact h.finished
  · rw [review]
    exact h.known
  · rw [review]
    exact h.few
  · rw [review,remediations]
    exact h.approved
  · rw [review,remediations]
    exact h.single

theorem Sane.idle : Sane units turnIds none state :=
  ⟨h.planned,h.finished,h.known,h.few,h.approved,nofun⟩

theorem Sane.finish (current : running = some active) :
    Sane units turnIds (some { active with completed := true }) state := by
  refine ⟨h.planned,h.finished,h.known,h.few,h.approved,?_⟩
  intro own same
  cases same
  exact h.single active current

theorem Sane.activity (activity : FactorySubagentActivity) (archive : Option Nat) :
    Sane units turnIds running { applyActivity activity archive state with
      revision := saturatingSucc (applyActivity activity archive state).revision } := by
  obtain ⟨subagents,history,same⟩ := applyActivity_kept activity archive state
  rw [same]
  exact h.congr rfl rfl rfl rfl (le_saturatingSucc (le_refl _) h.planned.revision)
    (min_le_right _ _)

theorem Sane.remediation {dispositions : List FactoryRemediationRecord}
    (accepted : (FactoryToolCall.remediation dispositions).apply state = .ok next)
    (own : ∀ active ∈ running, active.plan.role ≠ .review) : Sane units turnIds running next := by
  have admissible : (FactoryToolCall.remediation dispositions).Admissible := trivial
  have planned := h.planned.step admissible accepted
  obtain ⟨changed,-,mutated,rfl⟩ := FactoryToolCall.apply_ok accepted
  obtain ⟨report,found,nonempty,texts,-,rfl⟩ := remediation_ok mutated
  refine ⟨planned,h.finished,h.known,h.few,fun other hit approve => ?_,
    fun active hit role => absurd role (own active hit)⟩
  obtain rfl : report = other := Option.some.inj (found.symm.trans hit)
  obtain ⟨record,member⟩ := List.exists_mem_of_ne_nil dispositions nonempty
  have known := (texts record member).known
  rw [(h.planned.reported report found).verdict.mp approve] at known
  cases known

end SaneStates

theorem recordReview_remediations (report : FactoryReviewReport) (state : FactoryState) :
    (state.recordReview report).remediations =
      if state.sameTurn report then state.remediations else [] := by
  unfold recordReview
  split
  · rfl
  · unfold closeReviewCycle
    split
    · assumption
    · rfl
    · rfl

theorem review_few {provenance : ReviewProvenance} {args : ReviewArgs}
    (h : Extension.review provenance args state = .ok next) :
    args.findings.length ≤ maxFindings := by
  simp only [Extension.review,Extension.validateReview,bind_ok,ensure_ok,exists_const] at h
  obtain ⟨_,⟨_,_,few,-⟩,-⟩ := h
  exact few

theorem Sane.review (h : Sane units turnIds (some active) state)
    {context : DetachedReviewThreadContext} {args : ReviewArgs} (role : active.plan.role = .review)
    (detached : Detached active.turn.turnId active.turn.threadId context)
    (started : active.turn.turnId ∈ turnIds)
    (accepted : (FactoryToolCall.review
      (detachedProvenance active.turn.turnId active.turn.threadId context) args).apply state =
        .ok next) :
    Sane units turnIds (some active) next := by
  have admissible : (FactoryToolCall.review
      (detachedProvenance active.turn.turnId active.turn.threadId context) args).Admissible :=
    ⟨_,_,context,rfl,detached⟩
  have planned := h.planned.step admissible accepted
  obtain ⟨changed,-,mutated,rfl⟩ := FactoryToolCall.apply_ok accepted
  have few := review_few mutated
  have reviewed := review_ok mutated
  obtain ⟨workUnits,recorded,-⟩ := reviewed.fields
  have cleared : changed.remediations = [] := by
    rw [reviewed.changed,recordReview_remediations]
    split
    · next same =>
      cases found : state.review with
      | none => simp [sameTurn,found] at same
      | some current =>
        simp only [sameTurn,found,Option.any_some,Bool.and_eq_true,
          decide_eq_true_eq] at same
        exact h.single active rfl role current found same.2
    · rfl
  refine ⟨planned,?_,fun report hit => ?_,fun report hit => ?_,fun _ _ _ => cleared,
    fun _ _ _ _ _ _ => cleared⟩
  · rw [workUnits]
    exact h.finished
  · cases recorded.symm.trans hit
    exact ⟨_,started,rfl⟩
  · cases recorded.symm.trans hit
    exact few

end Sanity

namespace Grounds

variable {units : List WorkUnitArgs} {turnIds : List String} {running : Option RunningTurn}
  {state next : FactoryState} {active : RunningTurn}

theorem of_unprepared (h : Sane units turnIds running state) (none : state.reviewRecovery = none) :
    Grounds units turnIds running state := by
  refine ⟨h,?_,?_,?_⟩
  · rw [restored_none none]
    exact h
  · rw [restored_none none]
  · rw [restored_none none]

theorem restored_prepare (state : FactoryState) :
    restored state.prepareReviewRecovery = restored state := by
  have prepared : state.prepareReviewRecovery.reviewRecovery = some (restored state).baseline := rfl
  have none := restored_recovery state
  rw [restored_some prepared]
  unfold prepareReviewRecovery baseline
  change { restored state with reviewRecovery := Option.none } = restored state
  rw [← none]

theorem kept (h : Grounds units turnIds running state) (sane : Sane units turnIds running next)
    (recovery : next.reviewRecovery = state.reviewRecovery)
    (workUnits : next.workUnits = state.workUnits) (grown : state.revision ≤ next.revision)
    (newer : state.currentGeneration ≤ next.currentGeneration) :
    Grounds units turnIds running next ∧ Rises state next := by
  cases found : state.reviewRecovery with
  | none =>
    have same := restored_none found
    have later := restored_none (recovery.trans found)
    refine ⟨of_unprepared sane (recovery.trans found),?_,?_⟩
    · rw [same,later]
      exact grown
    · rw [same,later]
      exact newer
  | some baseline =>
    have same := restored_some found
    have later := restored_some (recovery.trans found)
    have generation : (restored next).currentGeneration = (restored state).currentGeneration := by
      rw [same,later]
      rfl
    have revision : (restored next).revision = (restored state).revision := by
      rw [same,later]
    refine ⟨⟨sane,?_,?_,?_⟩,revision.ge,generation.ge⟩
    · refine h.base.congr ?_ ?_ ?_ ?_ revision.ge ?_
      · rw [restored_units,restored_units,workUnits]
      · rw [same,later]
      · rw [same,later]
      · rw [same,later]
      · rw [revision]
        exact h.base.planned.revision
    · rw [generation]
      exact h.generation.trans newer
    · rw [revision]
      exact h.revision.trans grown

section Grounded

variable (h : Grounds units turnIds running state)

include h

theorem map {ids : List String} {next : Option RunningTurn}
    (change : ∀ state, Sane units turnIds running state → Sane units ids next state) :
    Grounds units ids next state :=
  ⟨change _ h.own,change _ h.base,h.generation,h.revision⟩

theorem rollback :
    Grounds units turnIds running (restored state) :=
  of_unprepared h.base (restored_recovery state)

theorem commit :
    Grounds units turnIds running { state with reviewRecovery := none } :=
  of_unprepared (h.own.congr rfl rfl rfl rfl (le_refl _) h.own.planned.revision) rfl

theorem prepare :
    Grounds units turnIds running state.prepareReviewRecovery := by
  have same := restored_prepare state
  refine ⟨h.base.congr rfl rfl rfl rfl (le_refl _) h.base.planned.revision,?_,?_,?_⟩
  · rw [same]
    exact h.base
  · rw [same]
    exact le_refl _
  · rw [same]
    exact le_refl _

theorem activity (activity : FactorySubagentActivity) (archive : Option Nat) :
    Grounds units turnIds running { applyActivity activity archive state with
        revision := saturatingSucc (applyActivity activity archive state).revision } ∧
      Rises state { applyActivity activity archive state with
        revision := saturatingSucc (applyActivity activity archive state).revision } := by
  have sane := h.own.activity activity archive
  obtain ⟨subagents,history,same⟩ := applyActivity_kept activity archive state
  rw [same] at sane ⊢
  exact h.kept sane rfl rfl (le_saturatingSucc (le_refl _) h.own.planned.revision)
    (le_refl _)

theorem remediation {dispositions : List FactoryRemediationRecord}
    (accepted : (FactoryToolCall.remediation dispositions).apply state = .ok next)
    (own : ∀ active ∈ running, active.plan.role ≠ .review) :
    Grounds units turnIds running next ∧ Rises state next := by
  have sane := h.own.remediation accepted own
  obtain ⟨changed,-,mutated,rfl⟩ := FactoryToolCall.apply_ok accepted
  obtain ⟨report,-,-,-,-,rfl⟩ := remediation_ok mutated
  exact h.kept sane rfl rfl (le_saturatingSucc (le_refl _) h.own.planned.revision)
    (le_refl _)

end Grounded

theorem recordedGeneration_ge (report : FactoryReviewReport)
    (bounded : state.currentGeneration ≤ u64Max) :
    state.currentGeneration ≤ recordedGeneration report state := by
  unfold recordedGeneration saturatingSucc
  split <;> omega

theorem review (h : Grounds units turnIds (some active) state)
    {context : DetachedReviewThreadContext} {args : ReviewArgs} (role : active.plan.role = .review)
    (detached : Detached active.turn.turnId active.turn.threadId context)
    (started : active.turn.turnId ∈ turnIds)
    (accepted : (FactoryToolCall.review
      (detachedProvenance active.turn.turnId active.turn.threadId context) args).apply state =
        .ok next) :
    Grounds units turnIds (some active) next ∧ Rises state next := by
  have sane := h.own.review role detached started accepted
  obtain ⟨changed,-,mutated,rfl⟩ := FactoryToolCall.apply_ok accepted
  have recovery := @FactoryToolCall.mutate_recovery (.review _ args) state changed mutated
  obtain ⟨workUnits,recorded,revision⟩ := (review_ok mutated).fields
  refine h.kept sane recovery workUnits ?_ ?_
  · simp only [revision]
    exact le_saturatingSucc (le_refl _) h.own.planned.revision
  · have bounded := h.own.planned.generation.trans h.own.planned.revision
    simp only [currentGeneration,recorded,Option.map_some]
    exact recordedGeneration_ge _ bounded

end Grounds

def Pending (running : Option RunningTurn) (state : FactoryState) : Prop :=
  ∃ active ∈ running, active.plan.role = .review ∧
    ∃ report ∈ state.review, recordedBy active.turn report

structure Grounded (state : FactoryState) (plan : TurnPlan) : Prop where
  revision : plan.role = .remediation → plan.baselines.revision ≤ (restored state).revision
  generation : plan.role = .review → ∀ generation ∈ plan.baselines.reviewGeneration,
    generation ≤ (restored state).currentGeneration

structure Moves (running : Option RunningTurn) (state next : FactoryState) : Prop where
  rises : Rises state next
  recovery : next.reviewRecovery = state.reviewRecovery
  workUnits : next.workUnits = state.workUnits
  review : next.review = state.review ∨ Pending running next

structure AfterReview (order : List String → List String) (previous : StageCheckpoint)
    (state : FactoryState) : Prop where
  operation : previous.operation = .review
  accepted : validateReviewTurn order state previous = .ok ()
  recovery : state.reviewRecovery = none

structure Remediating (order : List String → List String) (previous : StageCheckpoint)
    (latest : Option StageCheckpoint) (running : Option RunningTurn) (state : FactoryState) :
    Prop where
  reviewed : state.review ≠ none
  base : (restored state).review ≠ none
  first : latest = none → AfterReview order previous state
  own : latest = none → ∀ active ∈ running, active.plan.role ≠ .review
  grounded : ∀ checkpoint ∈ latest, Grounded state checkpoint.plan
  level : ∀ checkpoint ∈ latest, checkpoint.turnRole = .remediation →
    Level state ∨ Pending running state

theorem commitDetachedReview_load (thread : FactoryThreadState) :
    (commitDetachedReview thread).load = { thread.load with reviewRecovery := none } := by
  unfold commitDetachedReview updateReviewRecovery FactoryState.commitReviewRecovery
  cases found : thread.load.reviewRecovery with
  | none =>
    simp only [if_true,Bool.false_eq_true,if_false,Option.isSome_none]
    rw [← found]
  | some baseline => rfl

theorem Buildable.review {plan : TurnPlan} (h : Buildable .review plan) : plan.role = .review := by
  have role := h.role
  cases same : plan.role with
  | review => rfl
  | remediation | stage =>
    rw [same] at role
    simp [roleMatches] at role

theorem Buildable.remediating {plan : TurnPlan} (h : Buildable .remediate plan) :
    plan.role = .remediation ∨ plan.role = .review := by
  have role := h.role
  cases same : plan.role with
  | remediation => exact .inl rfl
  | review => exact .inr rfl
  | stage =>
    rw [same] at role
    simp [roleMatches] at role

section Moving

variable {running : Option RunningTurn} {state next : FactoryState} {plan : TurnPlan}
  {order : List String → List String} {units : List WorkUnitArgs} {turnIds : List String}

theorem not_pending_none : ¬ Pending none state := by
  rintro ⟨active,held,-⟩
  cases held

theorem Grounded.rise (h : Grounded state plan) (rises : Rises state next) : Grounded next plan :=
  ⟨fun role => (h.revision role).trans rises.revision,
    fun role generation hit => (h.generation role generation hit).trans rises.generation⟩

theorem currentGeneration_of_review {report : FactoryReviewReport}
    (found : state.review = some report) : state.currentGeneration = report.generation := by
  simp [FactoryState.currentGeneration,found]

theorem Pending.reviewed (h : Pending running state) : state.review ≠ none := by
  obtain ⟨active,-,-,report,found,-⟩ := h
  exact Option.ne_none_iff_exists'.mpr ⟨report,found⟩

theorem Moves.reviewed (h : Moves running state next) (reviewed : state.review ≠ none) :
    next.review ≠ none := by
  rcases h.review with same | pending
  · rw [same]
    exact reviewed
  · exact pending.reviewed

theorem Moves.base (h : Moves running state next) (reviewed : state.review ≠ none)
    (base : (restored state).review ≠ none) : (restored next).review ≠ none := by
  cases found : state.reviewRecovery with
  | none =>
    rw [restored_none (h.recovery.trans found)]
    exact h.reviewed reviewed
  | some baseline =>
    rw [restored_some found] at base
    rw [restored_some (h.recovery.trans found)]
    exact base

theorem Moves.level (h : Moves running state next) (reviewed : state.review ≠ none)
    (before : Level state) : Level next ∨ Pending running next := by
  rcases h.review with same | pending
  · obtain ⟨report,found⟩ := Option.ne_none_iff_exists'.mp reviewed
    refine .inl ?_
    have generation : next.currentGeneration = state.currentGeneration := by
      rw [currentGeneration_of_review found,currentGeneration_of_review (same.trans found)]
    unfold Level
    rw [generation]
    exact before.trans h.rises.generation
  · exact .inr pending

theorem Moves.pending (h : Moves running state next) (before : Pending running state) :
    Pending running next := by
  rcases h.review with same | pending
  · obtain ⟨active,held,role,report,found,recorded⟩ := before
    exact ⟨active,held,role,report,same.trans found,recorded⟩
  · exact pending

theorem validateReviewTurn_congr (workUnits : next.workUnits = state.workUnits)
    (review : next.review = state.review) (checkpoint : StageCheckpoint) :
    validateReviewTurn order next checkpoint = validateReviewTurn order state checkpoint := by
  simp only [validateReviewTurn,OperationKind.validate,validateReview,validateExecute,
    validateDecomposition,validateReviewReport,workUnits,review]

theorem moves_activity (h : Grounds units turnIds running state)
    (activity : FactorySubagentActivity) (archive : Option Nat) :
    Moves running state { applyActivity activity archive state with
      revision := saturatingSucc (applyActivity activity archive state).revision } := by
  have rises := (h.activity activity archive).2
  obtain ⟨subagents,history,same⟩ := applyActivity_kept activity archive state
  rw [same] at rises ⊢
  exact ⟨rises,rfl,rfl,.inl rfl⟩

theorem moves_remediation {dispositions : List FactoryRemediationRecord}
    (accepted : (FactoryToolCall.remediation dispositions).apply state = .ok next)
    (rises : Rises state next) : Moves running state next := by
  obtain ⟨changed,-,mutated,rfl⟩ := FactoryToolCall.apply_ok accepted
  obtain ⟨report,-,-,-,-,rfl⟩ := Planned.remediation_ok mutated
  exact ⟨rises,rfl,rfl,.inl rfl⟩

theorem moves_review {active : RunningTurn} {context : DetachedReviewThreadContext}
    {args : ReviewArgs} (role : active.plan.role = .review)
    (accepted : (FactoryToolCall.review
      (detachedProvenance active.turn.turnId active.turn.threadId context) args).apply state =
        .ok next)
    (rises : Rises state next) : Moves (some active) state next := by
  obtain ⟨changed,-,mutated,rfl⟩ := FactoryToolCall.apply_ok accepted
  have recovery := @FactoryToolCall.mutate_recovery (.review _ args) state changed mutated
  obtain ⟨workUnits,recorded,-⟩ := (Planned.review_ok mutated).fields
  exact ⟨rises,recovery,workUnits,.inr ⟨active,rfl,role,_,recorded,rfl,rfl⟩⟩

end Moving

namespace Remediating

variable {order : List String → List String} {previous checkpoint : StageCheckpoint}
  {latest : Option StageCheckpoint} {running : Option RunningTurn} {state next : FactoryState}
  {active : RunningTurn}

theorem anchored (h : Remediating order previous latest none state) :
    ∀ checkpoint ∈ latest, checkpoint.turnRole = .remediation → Level state :=
  fun checkpoint hit role => (h.level checkpoint hit role).resolve_right not_pending_none

theorem begin (h : Remediating order previous latest none state)
    (later : active.plan.role = .review → latest ≠ none) :
    Remediating order previous latest (some active) state := by
  refine ⟨h.reviewed,h.base,h.first,fun none other held role => ?_,h.grounded,
    fun checkpoint hit role => .inl (h.anchored checkpoint hit role)⟩
  obtain rfl : active = other := Option.some.inj held
  exact later role none

theorem finish (h : Remediating order previous latest (some active) state) :
    Remediating order previous latest (some { active with completed := true }) state := by
  refine ⟨h.reviewed,h.base,h.first,fun none other held => ?_,h.grounded,
    fun checkpoint hit role => (h.level checkpoint hit role).imp_right ?_⟩
  · cases held
    exact h.own none active rfl
  · rintro ⟨other,held,rest⟩
    cases held
    exact ⟨_,rfl,rest⟩

section Remediation

variable (h : Remediating order previous latest running state)

include h

theorem moves (m : Moves running state next) : Remediating order previous latest running next := by
  refine ⟨m.reviewed h.reviewed,m.base h.reviewed h.base,fun none => ?_,h.own,
    fun checkpoint hit => (h.grounded checkpoint hit).rise m.rises,fun checkpoint hit role => ?_⟩
  · have follows := h.first none
    have same : next.review = state.review := by
      refine m.review.resolve_right ?_
      rintro ⟨active,held,role,-⟩
      exact h.own none active held role
    refine ⟨follows.operation,?_,m.recovery.trans follows.recovery⟩
    rw [validateReviewTurn_congr m.workUnits same]
    exact follows.accepted
  · rcases h.level checkpoint hit role with level | pending
    · exact m.level h.reviewed level
    · exact .inr (m.pending pending)

theorem idle (anchored : ∀ checkpoint ∈ latest, checkpoint.turnRole = .remediation → Level state) :
    Remediating order previous latest none state :=
  ⟨h.reviewed,h.base,h.first,fun _ => nofun,h.grounded,
    fun checkpoint hit role => .inl (anchored checkpoint hit role)⟩

theorem rollback :
    Remediating order previous latest running (restored state) := by
  have same := restored_restored state
  refine ⟨h.base,same.symm ▸ h.base,fun none => ?_,h.own,fun checkpoint hit => ?_,
    fun _ _ _ => .inl (level_restored (restored_recovery state))⟩
  · have follows := h.first none
    rw [restored_none follows.recovery]
    exact follows
  · have grounded := h.grounded checkpoint hit
    refine ⟨?_,?_⟩
    · rw [same]
      exact grounded.revision
    · rw [same]
      exact grounded.generation

theorem commit {units : List WorkUnitArgs} {turnIds : List String}
    (grounds : Grounds units turnIds running state) :
    Remediating order previous latest running { state with reviewRecovery := none } := by
  have same : restored { state with reviewRecovery := none } =
      { state with reviewRecovery := none } := restored_none rfl
  refine ⟨h.reviewed,same.symm ▸ h.reviewed,fun none => ?_,h.own,fun checkpoint hit => ?_,
    fun _ _ _ => .inl (level_restored rfl)⟩
  · have follows := h.first none
    refine ⟨follows.operation,?_,rfl⟩
    rw [← follows.accepted]
    exact validateReviewTurn_congr rfl rfl previous
  · have grounded := h.grounded checkpoint hit
    refine ⟨fun role => ?_,fun role generation captured => ?_⟩
    · rw [same]
      exact (grounded.revision role).trans grounds.revision
    · rw [same]
      exact (grounded.generation role generation captured).trans grounds.generation

theorem prepare (later : latest ≠ none) :
    Remediating order previous latest running state.prepareReviewRecovery := by
  have same := Grounds.restored_prepare state
  have level : Level state.prepareReviewRecovery := by
    unfold Level
    rw [same]
    exact Nat.le_refl _
  refine ⟨h.base,same.symm ▸ h.base,fun none => absurd none later,h.own,
    fun checkpoint hit => ?_,fun _ _ _ => .inl level⟩
  have grounded := h.grounded checkpoint hit
  refine ⟨?_,?_⟩
  · rw [same]
    exact grounded.revision
  · rw [same]
    exact grounded.generation

end Remediation

theorem write (h : Remediating order previous latest running state)
    (grounded : Grounded state checkpoint.plan)
    (level : checkpoint.turnRole = .remediation → Level state) :
    Remediating order previous (some checkpoint) running state := by
  refine ⟨h.reviewed,h.base,nofun,nofun,fun written hit => ?_,fun written hit role => ?_⟩
  · cases hit
    exact grounded
  · cases hit
    exact .inl (level role)

end Remediating

end Runtime
