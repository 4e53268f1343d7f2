import Factory.Runtime.AuditedLoop
import Factory.Runtime.RemediateState
import Factory.Runtime.StageValidation

namespace Runtime

open Extension Result StageCheckpoint

namespace StageLoop

structure Startable (operation : OperationKind) (latest : Option StageCheckpoint)
    (state : FactoryState) (plan : TurnPlan) : Prop where
  built : Buildable operation plan
  grounded : operation = .remediate → Grounded state plan
  level : operation = .remediate → plan.role = .remediation → Level state
  later : operation = .remediate → plan.role = .review → latest ≠ none

structure Wrote (operation : OperationKind) (checkpoint : StageCheckpoint) : Prop where
  operation : checkpoint.operation = operation
  phase : checkpoint.phase ≠ .completed
  valid : checkpoint.validate = .ok ()

structure Runs (operation : OperationKind) (parentThreadId : String) (turnIds : List String)
    (active : RunningTurn) : Prop where
  built : Buildable operation active.plan
  named : active.turn.Named
  started : active.turn.turnId ∈ turnIds
  detached : active.plan.role = .review → active.turn.threadId ≠ parentThreadId

structure Accepted (order : List String → List String) (operation : OperationKind)
    (state : FactoryState) (checkpoint : StageCheckpoint) : Prop where
  valid : checkpoint.validate = .ok ()
  review : operation = .review → checkpoint.operation = .review ∧
    validateReviewTurn order state checkpoint = .ok ()

structure Rebuts (operation : OperationKind) (state : FactoryState) (plan : TurnPlan) : Prop where
  built : Buildable operation plan
  role : plan.role = .remediation
  revision : plan.baselines.revision ≤ state.revision

structure Base (order : List String → List String) (units : List WorkUnitArgs) (s : StageLoop) :
    Prop where
  grounds : Grounds units (s.started.map TurnRef.turnId) s.turn s.thread.load
  parent : Text.isBlank s.parentThreadId = false
  kind : s.operation = .review ∨ s.operation = .remediate ∨ s.operation = .iterate
  previous : s.previous.validate = .ok ()
  latest : ∀ checkpoint ∈ s.latest, Wrote s.operation checkpoint
  running : ∀ active ∈ s.turn,
    Runs s.operation s.parentThreadId (s.started.map TurnRef.turnId) active
  remediate : s.operation = .remediate →
    Remediating order s.previous s.latest s.turn s.thread.load

def Anchored (s : StageLoop) : Prop :=
  s.operation = .remediate → ∀ checkpoint ∈ s.latest, checkpoint.turnRole = .remediation →
    Level s.thread.load

def Waits (s : StageLoop) (plan : TurnPlan) : Prop :=
  s.Unguarded ∧ Startable s.operation s.latest s.thread.load plan

structure InTurn (operation : OperationKind) (latest : Option StageCheckpoint)
    (state : FactoryState) (running : Option RunningTurn) (snapshot : Option Bool)
    (plan : TurnPlan) (turn : TurnRef) : Prop where
  startable : Startable operation latest state plan
  named : turn.Named
  own : ∀ active ∈ running, active.plan = plan
  snapshot : plan.role = .review ↔ snapshot ≠ none

def Underway (s : StageLoop) (plan : TurnPlan) (turn : TurnRef) : Prop :=
  InTurn s.operation s.latest s.thread.load s.turn s.worktree.snapshot plan turn

def Reverts (s : StageLoop) (resumption : Resumption) : Prop :=
  resumption = .fail ∨ s.Quiet ∧ (resumption = .enter → s.operation ≠ .iterate)

def Supports (order : List String → List String) (s : StageLoop) : Point → Prop
  | .idle | .cleanup | .cleanupRollback => s.Quiet
  | .recover => s.Quiet ∧ s.operation ≠ .iterate
  | .enter => s.Unguarded ∧ s.operation ≠ .iterate
  | .evaluate checkpoint _ => s.Unguarded ∧ s.latest = some checkpoint
  | .rollback (.run plan) | .run plan => s.Waits plan
  | .rollback (.complete _) => False
  | .rollback .fail => True
  | .commit (.run plan) => s.Unguarded ∧ Rebuts s.operation s.thread.load plan
  | .commit (.complete checkpoint) =>
    s.turn = none ∧ Accepted order s.operation s.thread.load checkpoint
  | .commit .fail => s.turn = none
  | .capture plan => s.Waits plan ∧ plan.role = .review
  | .prepare plan => s.turn = none ∧ Startable s.operation s.latest s.thread.load plan ∧
      plan.role = .review ∧ s.worktree.snapshot ≠ none
  | .start plan => s.turn = none ∧ Startable s.operation s.latest s.thread.load plan ∧
      (plan.role = .review ↔ s.worktree.snapshot ≠ none)
  | .await plan turn => s.Underway plan turn
  | .wait plan turn => s.Underway plan turn ∧
      ∃ checkpoint ∈ s.latest, checkpoint.turnRole = plan.role
  | .record plan turn => s.Underway plan turn ∧ s.turn = none
  | .compare outcome => s.worktree.snapshot ≠ none ∧
      ∀ checkpoint ∈ outcome, s.latest = some checkpoint ∧ s.turn = none
  | .mutated resumption => s.Reverts resumption
  | .acknowledge resumption => s.thread.load.reviewRecovery = none ∧ s.Reverts resumption
  | .complete checkpoint => s.turn = none ∧
      Accepted order s.operation s.thread.load checkpoint ∧
        (s.operation = .review → s.thread.load.reviewRecovery = none)

structure Steady (order : List String → List String) (units : List WorkUnitArgs) (s : StageLoop) :
    Prop where
  base : s.Base order units
  point : s.Supports order s.point

section States

variable {operation : OperationKind} {latest : Option StageCheckpoint}
  {running : Option RunningTurn} {state next : FactoryState} {plan : TurnPlan}
  {checkpoint : StageCheckpoint} {order : List String → List String}

theorem Startable.moves (h : Startable operation latest state plan) (m : Moves running state next)
    (own : ∀ active ∈ running, active.plan = plan)
    (reviewed : operation = .remediate → state.review ≠ none) :
    Startable operation latest next plan := by
  refine ⟨h.built,fun same => (h.grounded same).rise m.rises,fun same role => ?_,h.later⟩
  refine (m.level (reviewed same) (h.level same role)).resolve_right ?_
  rintro ⟨active,held,reviews,-⟩
  rw [own active held,role] at reviews
  cases reviews

theorem Startable.rollback (h : Startable operation latest state plan) :
    Startable operation latest (restored state) plan := by
  have same := restored_restored state
  refine ⟨h.built,fun remediate => ⟨?_,?_⟩,
    fun _ _ => level_restored (restored_recovery state),h.later⟩
  · rw [same]
    exact (h.grounded remediate).revision
  · rw [same]
    exact (h.grounded remediate).generation

theorem Startable.prepare (h : Startable operation latest state plan)
    (role : plan.role = .review) :
    Startable operation latest state.prepareReviewRecovery plan := by
  have same := Grounds.restored_prepare state
  refine ⟨h.built,fun remediate => ⟨?_,?_⟩,fun _ other => ?_,h.later⟩
  · rw [same]
    exact (h.grounded remediate).revision
  · rw [same]
    exact (h.grounded remediate).generation
  · rw [role] at other
    cases other

theorem Rebuts.startable (h : Rebuts operation state plan) :
    Startable operation latest { state with reviewRecovery := none } plan := by
  have same : restored { state with reviewRecovery := none } =
      { state with reviewRecovery := none } := restored_none rfl
  refine ⟨h.built,fun _ => ⟨fun _ => ?_,fun role => ?_⟩,fun _ _ => level_restored rfl,
    fun _ role => ?_⟩
  · rw [same]
    exact h.revision
  · rw [h.role] at role
    cases role
  · rw [h.role] at role
    cases role

theorem Wrote.built (h : Wrote operation checkpoint) : Buildable operation checkpoint.plan := by
  have built := ((validate_iff checkpoint).mp h.valid).2
  rwa [h.operation] at built

theorem Accepted.commit (h : Accepted order operation state checkpoint) :
    Accepted order operation { state with reviewRecovery := none } checkpoint := by
  refine ⟨h.valid,fun review => ?_⟩
  obtain ⟨same,accepted⟩ := h.review review
  refine ⟨same,?_⟩
  rw [← accepted]
  exact validateReviewTurn_congr rfl rfl checkpoint

end States

namespace Base

variable {order : List String → List String} {units : List WorkUnitArgs} {s : StageLoop}
  {checkpoint : StageCheckpoint} {plan : TurnPlan} {turn : TurnRef}

theorem unprepared (none : s.thread.load.reviewRecovery = none) : s.Anchored :=
  fun _ _ _ _ => level_restored none

section Keeping

variable (h : s.Base order units)

include h

theorem goto (point : Point) : Base order units { s with point := point } :=
  ⟨h.grounds,h.parent,h.kind,h.previous,h.latest,h.running,h.remediate⟩

theorem compare : s.compareWorktree.2.Base order units :=
  ⟨h.grounds,h.parent,h.kind,h.previous,h.latest,h.running,h.remediate⟩

theorem during {thread : FactoryThreadState}
    (grounds : Grounds units (s.started.map TurnRef.turnId) s.turn thread.load)
    (remediate : s.operation = .remediate →
      Remediating order s.previous s.latest s.turn thread.load) :
    Base order units { s with thread := thread } :=
  ⟨grounds,h.parent,h.kind,h.previous,h.latest,h.running,remediate⟩

theorem anchored (idle : s.turn = none) : s.Anchored := by
  intro operation
  have remediate := h.remediate operation
  rw [idle] at remediate
  exact remediate.anchored

theorem idle (anchored : s.Anchored) :
    Base order units { s with turn := none } :=
  ⟨h.grounds.map fun _ sane => sane.idle,h.parent,h.kind,h.previous,h.latest,nofun,
    fun operation => (h.remediate operation).idle (anchored operation)⟩

theorem shutdown (anchored : s.Anchored) : s.shutdown.Base order units :=
  (h.idle anchored).during (h.idle anchored).grounds (h.idle anchored).remediate

theorem abort (anchored : s.Anchored) : s.abort.Steady order units :=
  ⟨(h.shutdown anchored).goto .cleanup,rfl,rfl⟩

theorem stop (anchored : s.Anchored) :
    Steady order units { s.shutdown with point := .idle } :=
  ⟨(h.shutdown anchored).goto .idle,rfl,rfl⟩

theorem rollback :
    Base order units { s with thread := rollbackDetachedReview s.thread } := by
  have load : (rollbackDetachedReview s.thread).load = restored s.thread.load :=
    rollbackDetachedReview_load s.thread
  refine h.during ?_ fun operation => ?_
  · rw [load]
    exact h.grounds.rollback
  · rw [load]
    exact (h.remediate operation).rollback

theorem commit :
    Base order units { s with thread := commitDetachedReview s.thread } := by
  have load := commitDetachedReview_load s.thread
  refine h.during ?_ fun operation => ?_
  · rw [load]
    exact h.grounds.commit
  · rw [load]
    exact (h.remediate operation).commit h.grounds

theorem prepare (later : s.operation = .remediate → s.latest ≠ none) :
    Base order units { s with thread := s.thread.save s.thread.load.prepareReviewRecovery } :=
  h.during h.grounds.prepare fun operation => (h.remediate operation).prepare (later operation)

theorem write {phase : StageCheckpointPhase}
    (startable : Startable s.operation s.latest s.thread.load plan) (named : turn.Named)
    (unsettled : phase ≠ .completed) :
    Base order units (s.write (buildTurn s.operation s.parentThreadId phase plan turn)) := by
  refine ⟨h.grounds,h.parent,h.kind,h.previous,fun checkpoint hit => ?_,h.running,
    fun operation => (h.remediate operation).write (startable.grounded operation)
      (startable.level operation)⟩
  cases hit
  exact ⟨rfl,unsettled,(validate_iff _).mpr
    ⟨⟨h.parent,named.thread,named.turn⟩,startable.built⟩⟩

theorem rerun (idle : s.turn = none) (latest : s.latest = some checkpoint) :
    Startable s.operation s.latest s.thread.load checkpoint.plan :=
  ⟨(h.latest checkpoint latest).built,
    fun operation => (h.remediate operation).grounded checkpoint latest,
    fun operation => h.anchored idle operation checkpoint latest,
    fun _ _ none => absurd (latest.symm.trans none) (by simp)⟩

theorem retract (unguarded : s.Unguarded) (latest : s.latest = some checkpoint) {next : Next}
    (reruns : next = .run checkpoint.plan ∨ next = .fail) :
    (s.retract checkpoint.turnRole next).Steady order units := by
  have startable := h.rerun unguarded.2 latest
  unfold StageLoop.retract
  rcases reruns with rfl | rfl
  · split
    · exact ⟨h.goto _,unguarded,startable⟩
    · exact ⟨h.goto _,unguarded,startable⟩
  · split
    · exact ⟨h.goto _,trivial⟩
    · exact h.abort (h.anchored unguarded.2)

end Keeping

end Base

section Concluding

variable {order : List String → List String} {units : List WorkUnitArgs} {s : StageLoop}
  {checkpoint : StageCheckpoint} {config : ExecutorConfig}

inductive Concludes (config : ExecutorConfig) (s : StageLoop) (checkpoint : StageCheckpoint) :
    Next → Prop where
  | complete : Concludes config s checkpoint (.complete { checkpoint with phase := .completed })
  | review (operation : s.operation = .remediate) (role : checkpoint.turnRole = .remediation) :
      Concludes config s checkpoint (.run ⟨.review, checkpoint.reviewCycle,
        ⟨s.thread.load.revision, some s.thread.load.currentGeneration, some checkpoint.turnId⟩⟩)
  | remediate (operation : s.operation = .remediate) (role : checkpoint.turnRole = .review) :
      Concludes config s checkpoint (.run ⟨.remediation, checkpoint.reviewCycle + 1,
        ⟨s.thread.load.revision, none, none⟩⟩)
  | spent (role : checkpoint.turnRole = .review)
      (cycles : config.maxReviewCycles ≤ checkpoint.reviewCycle) :
      Concludes config s checkpoint .fail

theorem finalize_complete (valid : checkpoint.validate = .ok ()) :
    finalize checkpoint = .complete { checkpoint with phase := .completed } := by
  rw [finalize,finalCheckpoint_ok valid]

theorem Base.concludes (h : s.Base order units) (latest : s.latest = some checkpoint) :
    Concludes config s checkpoint (s.conclude config checkpoint) := by
  have wrote := h.latest checkpoint latest
  have turn : Text.isBlank checkpoint.turnId = false :=
    ((validate_iff checkpoint).mp wrote.valid).1.turn
  by_cases operation : s.operation = .remediate
  · obtain ⟨report,found⟩ := Option.ne_none_iff_exists'.mp (h.remediate operation).reviewed
    have built := wrote.built
    rw [operation] at built
    have generation := currentGeneration_of_review found
    simp only [conclude,operation,found]
    rcases built.remediating with role | role
    · have role : checkpoint.turnRole = .remediation := role
      simp only [role]
      split
      · rw [finalize_complete wrote.valid]
        exact .complete
      · rw [capture_ok h.parent turn]
        simp only [reviewBaselines,found,Option.map_some,Option.getD_some]
        rw [← generation]
        exact .review operation role
    · have role : checkpoint.turnRole = .review := role
      simp only [role]
      split
      · rw [finalize_complete wrote.valid]
        exact .complete
      · split
        · next spent => exact .spent role spent
        · exact .remediate operation role
  · have final : s.conclude config checkpoint = finalize checkpoint := by
      unfold conclude
      split
      · contradiction
      · rfl
    rw [final,finalize_complete wrote.valid]
    exact .complete

theorem Base.reviews (h : s.Base order units) (idle : s.turn = none)
    (latest : s.latest = some checkpoint) (operation : s.operation = .remediate)
    (role : checkpoint.turnRole = .remediation) :
    Startable s.operation s.latest s.thread.load ⟨.review, checkpoint.reviewCycle,
      ⟨s.thread.load.revision, some s.thread.load.currentGeneration, some checkpoint.turnId⟩⟩ := by
  have wrote := h.latest checkpoint latest
  have named := ((validate_iff checkpoint).mp wrote.valid).1
  have cycle := wrote.built.role
  refine ⟨⟨?_,by simp,by simp,?_⟩,fun _ => ⟨nofun,fun _ generation hit => ?_⟩,fun _ => nofun,
    fun _ _ none => absurd (latest.symm.trans none) (by simp)⟩
  · simp only [plan,operation,role] at cycle ⊢
    cases found : checkpoint.reviewCycle with
    | zero =>
      rw [found] at cycle
      simp [roleMatches] at cycle
    | succ n => rfl
  · intro parentTurnId hit
    cases hit
    exact named.turn
  · cases hit
    exact h.anchored idle operation checkpoint latest role

theorem Base.accept (h : s.Base config.order units) (unguarded : s.Unguarded)
    (latest : s.latest = some checkpoint) {u : Unit}
    (accepted : validateCheckpointState config.order s.thread.load checkpoint = .ok u) :
    (s.accept config checkpoint).Steady config.order units := by
  have wrote := h.latest checkpoint latest
  have valid : { checkpoint with phase := .completed }.validate = .ok () :=
    (validate_iff _).mpr ((validate_iff _).mp wrote.valid)
  have concludes := @Base.concludes config.order units s checkpoint config h latest
  unfold StageLoop.accept
  dsimp only
  generalize s.conclude config checkpoint = next at concludes
  split
  · next role =>
    have reviewed : validateReviewTurn config.order s.thread.load checkpoint = .ok u := by
      simpa only [validateCheckpointState,role] using accepted
    refine ⟨⟨h.grounds,h.parent,h.kind,h.previous,h.latest,h.running,h.remediate⟩,?_⟩
    cases concludes with
    | complete => exact ⟨unguarded.2,valid,fun review => ⟨wrote.operation.trans review,reviewed⟩⟩
    | review _ other => cases role.symm.trans other
    | remediate operation _ =>
      refine ⟨unguarded,?_,rfl,Nat.le_refl _⟩
      rw [show s.operation = .remediate from operation]
      exact ⟨rfl,by simp,by simp,by simp⟩
    | spent => exact unguarded.2
  · next other =>
    have unreviewed : s.operation ≠ .review := fun review => by
      have built := wrote.built
      rw [review] at built
      exact other built.review
    cases concludes with
    | complete => exact ⟨h.goto _,unguarded.2,⟨valid,fun review => absurd review unreviewed⟩,
        fun review => absurd review unreviewed⟩
    | review operation role =>
      exact ⟨h.goto _,unguarded,h.reviews unguarded.2 latest operation role⟩
    | remediate _ role | spent role => exact absurd role other

theorem Base.evaluate (h : s.Base config.order units) (unguarded : s.Unguarded)
    (latest : s.latest = some checkpoint) (mayRerun : Bool) :
    (s.evaluate config checkpoint mayRerun).Steady config.order units := by
  unfold StageLoop.evaluate
  split
  · exact h.retract unguarded latest (.inl rfl)
  · split
    · refine h.retract unguarded latest ?_
      cases mayRerun with
      | true => exact .inl rfl
      | false => exact .inr rfl
    · next accepted => exact h.accept unguarded latest accepted

theorem Base.completeFromReview (h : s.Base config.order units) (idle : s.turn = none)
    (operation : s.operation = .remediate) :
    (s.completeFromReview config).Steady config.order units := by
  unfold StageLoop.completeFromReview
  split
  · exact h.abort (h.anchored idle)
  · next completed built =>
    split
    · exact h.abort (h.anchored idle)
    · have other : s.operation ≠ .review := by
        rw [operation]
        nofun
      exact ⟨⟨h.grounds,h.parent,h.kind,h.previous,h.latest,h.running,h.remediate⟩,idle,
        ⟨(new_ok built).2,fun review => absurd review other⟩,
        fun review => absurd review other⟩

theorem Base.remediates (h : s.Base order units) (latest : s.latest = none)
    (operation : s.operation = .remediate) :
    Startable s.operation s.latest s.thread.load
      ⟨.remediation, 1, ⟨s.thread.load.revision, none, none⟩⟩ := by
  have recovery := ((h.remediate operation).first latest).recovery
  refine ⟨?_,fun _ => ⟨fun _ => ?_,nofun⟩,fun _ _ => level_restored recovery,fun _ => nofun⟩
  · rw [operation]
    exact ⟨rfl,by simp,by simp,nofun⟩
  · rw [restored_none recovery]

theorem Base.enter (h : s.Base config.order units) (unguarded : s.Unguarded)
    (operates : s.operation ≠ .iterate) : (s.enter config).Steady config.order units := by
  unfold StageLoop.enter
  split
  · next checkpoint latest => exact ⟨h.goto _,unguarded,latest⟩
  · next latest =>
    split
    · next remediate =>
      split
      · exact h.completeFromReview unguarded.2 remediate
      · exact ⟨h.goto _,unguarded,h.remediates latest remediate⟩
    · next other =>
      have turn : Text.isBlank s.previous.turnId = false :=
        ((validate_iff s.previous).mp h.previous).1.turn
      have review : s.operation = .review :=
        h.kind.resolve_right fun rest => rest.elim other operates
      rw [capture_ok h.parent turn]
      refine ⟨h.goto _,unguarded,?_,fun same => absurd same other,
        fun same => absurd same other,fun same => absurd same other⟩
      change Buildable s.operation _
      rw [review]
      refine ⟨rfl,by simp [reviewBaselines],by simp [reviewBaselines],fun parent hit => ?_⟩
      cases hit
      exact turn

end Concluding

end StageLoop

end Runtime
