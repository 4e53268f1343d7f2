import Factory.Runtime.RemediateSteps

namespace Runtime

open Extension Result Planned StageCheckpoint TaskLoop

def PlanEvent.Admissible : PlanEvent → Prop
  | .decompose order _ => ∀ ids, (order ids).Perm ids
  | .activity _ _ => True

structure Drafted (thread : FactoryThreadState) : Prop where
  current : thread.current = thread.load
  unreviewed : Unreviewed thread.load
  planned : thread.load.workUnits = [] ∨ ∃ units, Planned units thread.load

section Planning

variable {thread : FactoryThreadState} {event : PlanEvent}

theorem Drafted.apply (h : Drafted thread) (admissible : event.Admissible) :
    Drafted (event.apply thread) := by
  cases event with
  | activity activity archive =>
    obtain ⟨loaded,current⟩ := activity_load h.current activity archive
    obtain ⟨subagents,history,same⟩ := applyActivity_kept activity archive thread.load
    refine ⟨current,?_,?_⟩
    · change Unreviewed (thread.upsertActivity activity archive).load
      rw [loaded,same]
      exact h.unreviewed
    · change (thread.upsertActivity activity archive).load.workUnits = [] ∨
        ∃ units, Planned units (thread.upsertActivity activity archive).load
      rw [loaded]
      refine h.planned.imp (fun empty => ?_) fun ⟨units,planned⟩ =>
        ⟨units,planned.activity activity archive⟩
      rw [same]
      exact empty
  | decompose order units =>
    obtain ⟨loaded,current⟩ :=
      @FactoryThreadState.call_load thread (.decompose order units) h.current
    cases outcome : (FactoryToolCall.decompose order units).apply thread.load with
    | error e =>
      rw [outcome] at loaded
      have same : (PlanEvent.apply thread (.decompose order units)).load = thread.load := loaded
      exact ⟨current,by rw [same]; exact h.unreviewed,by rw [same]; exact h.planned⟩
    | ok next =>
      rw [outcome] at loaded
      have same : (PlanEvent.apply thread (.decompose order units)).load = next := loaded
      refine ⟨current,?_,?_⟩
      · rw [same]
        obtain ⟨changed,_,mutated,rfl⟩ := FactoryToolCall.apply_ok outcome
        simp only [FactoryToolCall.mutate,decompose,bind_ok,pure_ok] at mutated
        obtain ⟨_,_,rfl⟩ := mutated
        exact ⟨rfl,h.unreviewed.2⟩
      · rw [same]
        exact .inr ⟨units,Planned.of_decompose admissible outcome⟩

variable {events : List PlanEvent}

theorem planThread_drafted (admissible : ∀ event ∈ events, event.Admissible) :
    Drafted (planThread events) := by
  have start : Drafted ⟨some .default,none⟩ := ⟨rfl,⟨rfl,rfl⟩,.inl rfl⟩
  unfold planThread
  generalize (⟨some .default,none⟩ : FactoryThreadState) = thread at start
  induction events generalizing thread with
  | nil => exact start
  | cons event rest ih =>
    obtain ⟨own,others⟩ := List.forall_mem_cons.mp admissible
    exact ih others _ (start.apply own)

theorem validatePlan_pending {order : List String → List String} {state : FactoryState} {u : Unit}
    (h : validatePlan order state = .ok u) :
    state.workUnits ≠ [] ∧ ∀ unit ∈ state.workUnits, unit.status = .pending := by
  simp only [validatePlan,bind_ok] at h
  obtain ⟨_,decomposed,_,pending,-⟩ := h
  simp only [validateDecomposition,bind_ok,ensure_ok] at decomposed
  refine ⟨decomposed.choose_spec.1,fun unit known => ?_⟩
  have checked := forM_ok pending unit known
  simp only [bind_ok,ensure_ok,exists_const] at checked
  exact checked.1

theorem start_sound {config : ExecutorConfig} {plan : StageCheckpoint} {u : Unit}
    (admissible : ∀ event ∈ events, event.Admissible) (operation : plan.operation = .plan)
    (valid : plan.validate = .ok ())
    (accepted : validateCheckpointState config.order (planThread events).load plan = .ok u) :
    ∃ units, ExecuteLoop.Sound units ⟨plan, none, { planThread events with cached := none }, none,
      [plan.turn], [plan.turn], .idle⟩ := by
  have drafted := planThread_drafted admissible
  obtain ⟨named,built⟩ := (StageCheckpoint.validate_iff plan).mp valid
  have role : plan.turnRole = .stage := by
    have matched := built.role
    rw [operation] at matched
    cases same : plan.turnRole with
    | stage => rfl
    | remediation | review =>
      have wrong : plan.plan.role = plan.turnRole := rfl
      rw [wrong,same] at matched
      simp [roleMatches] at matched
  simp only [validateCheckpointState,role,validateStageTurn,operation,bind_ok,
    OperationKind.validate] at accepted
  obtain ⟨⟨⟩,planned,-⟩ := accepted
  obtain ⟨nonempty,pending⟩ := validatePlan_pending (StageResult.text_ok.mp planned)
  obtain ⟨units,plans⟩ := drafted.planned.resolve_left nonempty
  refine ⟨units,plans,drafted.unreviewed,rfl,named.parent,by simp,fun _ _ => ?_,rfl⟩
  obtain ⟨unit,known⟩ := List.exists_mem_of_ne_nil _ nonempty
  exact ⟨unit,known,by simp [pending unit known]⟩

end Planning

section Passing

variable {order : List String → List String} {units : List WorkUnitArgs} {turnIds : List String}
  {running : Option RunningTurn} {state : FactoryState} {plan : TurnPlan} {turn : TurnRef}
  {operation : OperationKind} {parentThreadId parentTurnId : String}
  {phase : StageCheckpointPhase}

theorem Sane.fresh (h : Sane units turnIds running state) {turnId : String}
    (unknown : turnId ∉ turnIds) :
    ∀ current, state.review = some current → current.recordedTurnId ≠ some turnId := by
  intro current found recorded
  obtain ⟨id,known,named⟩ := h.known current found
  have same := Option.some.inj (named.symm.trans recorded)
  exact unknown (same ▸ known)

theorem checkpointReviewBaseline_build {generation : Nat}
    (captured : plan.baselines.reviewGeneration = some generation)
    (expected : plan.baselines.expectedReviewParentTurnId = some parentTurnId)
    (thread : Text.isBlank parentThreadId = false) (parent : Text.isBlank parentTurnId = false) :
    checkpointReviewBaseline (buildTurn operation parentThreadId phase plan turn) =
      .ok ⟨generation, parentThreadId, parentTurnId⟩ := by
  simp only [checkpointReviewBaseline,buildTurn,StageCheckpoint.build,captured,expected,
    bind_ok,okOr_ok]
  refine ⟨generation,rfl,parentTurnId,rfl,?_⟩
  simp only [ReviewBaseline.fromParts,requireText,thread,parent]
  rfl

section Passing

variable (h : Sane units turnIds running state) (permutes : ∀ ids, (order ids).Perm ids)

include h permutes

theorem Sane.executed : validateExecute order state = .ok () :=
  (validateExecute_iff permutes h.planned).mpr h.finished

theorem Sane.review_passes (role : plan.role = .review) (reviewed : state.review ≠ none)
    (below : state.revision < u64Max) {generation : Nat}
    (captured : plan.baselines.reviewGeneration = some generation)
    (expected : plan.baselines.expectedReviewParentTurnId = some parentTurnId)
    (detached : Detached turn.turnId turn.threadId ⟨parentThreadId, parentTurnId⟩)
    (unknown : turn.turnId ∉ turnIds) (grounded : generation ≤ state.currentGeneration) :
    ∃ next, (FactoryToolCall.review (detachedProvenance turn.turnId turn.threadId
        ⟨parentThreadId, parentTurnId⟩) approval).apply state = .ok next ∧
      validateCheckpointState order next
        (buildTurn operation parentThreadId phase plan turn) = .ok () := by
  have accepted := approves (detachedProvenance turn.turnId turn.threadId
    ⟨parentThreadId,parentTurnId⟩) state
  refine ⟨_,accepted,?_⟩
  have admissible : (FactoryToolCall.review (detachedProvenance turn.turnId turn.threadId
      ⟨parentThreadId,parentTurnId⟩) approval).Admissible :=
    ⟨_,_,_,rfl,detached⟩
  have planned := h.planned.step admissible accepted
  obtain ⟨workUnits,recorded,-⟩ := recordReview_fields
    (reviewReport (detachedProvenance turn.turnId turn.threadId
      ⟨parentThreadId,parentTurnId⟩) approval 0) state
  have executed : validateExecute order _ = .ok () :=
    (validateExecute_iff permutes planned).mpr (by rw [workUnits]; exact h.finished)
  have newer := @recordedGeneration_newer units state
    (reviewReport (detachedProvenance turn.turnId turn.threadId
      ⟨parentThreadId,parentTurnId⟩) approval 0) h.planned below
    fun current found => h.fresh unknown current found
  obtain ⟨report,found⟩ := Option.ne_none_iff_exists'.mp reviewed
  rw [found,Option.map_some,Option.getD_some,← currentGeneration_of_review found] at newer
  have shape : (buildTurn operation parentThreadId phase plan turn).turnRole = .review := role
  simp only [validateCheckpointState,shape,validateReviewTurn,bind_ok,okOr_ok,ensure_ok,
    exists_const]
  refine ⟨_,checkpointReviewBaseline_build captured expected detached.parentThread
    detached.parentTurn,(),StageResult.text_ok.mpr ?_,_,recorded,rfl,rfl⟩
  change validateReview order _ _ = .ok ()
  simp only [validateReview,bind_ok,okOr_ok]
  refine ⟨(),executed,_,recorded,validateReviewReport_of ?_ fun baseline same => ?_⟩
  · rw [planned.ids]
    exact planned.reported _ recorded
  · cases same
    exact ⟨grounded.trans_lt newer,rfl,rfl⟩

theorem Sane.remediation_passes (role : plan.role = .remediation) (reviewed : state.review ≠ none)
    (below : state.revision < u64Max) (grounded : plan.baselines.revision ≤ state.revision) :
    ∃ calls next, (∀ call ∈ calls, call.stage = .remediate) ∧
      FactoryToolCall.applyAll calls state = .ok next ∧
      validateCheckpointState order next
        (buildTurn operation parentThreadId phase plan turn) = .ok () := by
  obtain ⟨report,found⟩ := Option.ne_none_iff_exists'.mp reviewed
  have reported := h.planned.reported report found
  have shape : (buildTurn operation parentThreadId phase plan turn).turnRole = .remediation := role
  simp only [validateCheckpointState,shape,validateRemediationTurn,bind_ok,okOr_ok]
  by_cases approve : report.verdict = .approve
  · refine ⟨[],state,fun _ member => absurd member List.not_mem_nil,rfl,(),
      StageResult.text_ok.mpr ?_,report,found,by rw [if_pos approve]; rfl⟩
    change validateRemediation order state = .ok ()
    simp only [validateRemediation,bind_ok,okOr_ok]
    refine ⟨(),h.executed permutes,report,found,(),?_,?_⟩
    · refine validateReviewReport_of ?_ (by simp)
      rw [h.planned.ids]
      exact reported
    · rw [validateDispositions,if_pos approve,ensure_ok]
      exact h.approved report found approve
  · have accepted := h.planned.remediates found approve (h.few report found)
    refine ⟨[.remediation (resolutions report)],{ state with
      remediations := resolutions report
      revision := saturatingSucc state.revision },?_,?_,(),
      StageResult.text_ok.mpr ?_,report,found,?_⟩
    · intro call member
      rw [List.mem_singleton.mp member]
      rfl
    · rw [FactoryToolCall.applyAll,List.foldlM_cons,accepted]
      rfl
    · obtain ⟨current,same,checked⟩ :=
        validateRemediation_iff permutes h.planned h.finished accepted
      obtain rfl : report = current := Option.some.inj (found.symm.trans same)
      exact checked.mpr (List.length_map _)
    · rw [if_neg approve,requireAdvance,ensure_ok]
      change plan.baselines.revision < saturatingSucc state.revision
      unfold saturatingSucc
      omega

end Passing

end Passing

def TaskLoop.Settles (config : ExecutorConfig) (t : TaskLoop) : Prop :=
  t.completing = true ∨ t.Spent config ∨
    ∃ plan, t.starting = some plan ∧ t.Passable config plan

namespace StageLoop

variable {config : ExecutorConfig} {units : List WorkUnitArgs} {s t : StageLoop}
  {plan : TurnPlan} {checkpoint : StageCheckpoint}

structure Resuming (config : ExecutorConfig) (units : List WorkUnitArgs) (s : StageLoop) :
    Prop where
  steady : s.Steady config.order units
  operation : s.operation = .remediate
  cached : s.thread.cached = none
  below : s.thread.load.revision < u64Max

def Decides (config : ExecutorConfig) (s : StageLoop) : Prop :=
  ∃ steps, TaskLoop.Settles config
    (Machine.run (TaskLoop.step config) (.reviewing s) (List.replicate steps .advance))

theorem Decides.now (h : TaskLoop.Settles config (.reviewing s)) : Decides config s := ⟨0,h⟩

theorem Decides.later (h : Decides config (s.advance config)) : Decides config s := by
  obtain ⟨steps,settles⟩ := h
  exact ⟨steps + 1,settles⟩

def launch (s : StageLoop) (plan : TurnPlan) (turn : TurnRef) : StageLoop :=
  { s with
    turn := some ⟨turn, plan, false⟩
    started := turn :: s.started
    reviewer := if plan.role = .review then some turn else s.reviewer
    point := .await plan turn }

theorem started_launch {turn : TurnRef} (at_point : s.point = .start plan)
    (built : Buildable s.operation plan) (issued : (TaskLoop.reviewing s).issues turn = true) :
    TaskLoop.step config (.reviewing s) (.started turn) = .reviewing (s.launch plan turn) := by
  have expected : ¬ (plan.role = .review ∧
      plan.baselines.expectedReviewParentTurnId = none) := by
    rintro ⟨role,missing⟩
    have present := built.parent.mp role
    rw [missing] at present
    cases present
  have fresh : turn ∉ s.started := fun member => TaskLoop.issues_fresh issued turn member rfl
  have began : s.beginTurn turn = s.launch plan turn := by
    simp only [beginTurn,at_point,if_neg expected,if_neg fresh,launch]
  have admitted : (TaskLoop.reviewing s).admits (.started turn) = true := issued
  rw [TaskLoop.step,if_pos admitted]
  exact congrArg TaskLoop.reviewing began

theorem launch_passes {turn : TurnRef} {calls : List FactoryToolCall} {final : FactoryState}
    (fresh : s.thread.current = s.thread.load)
    (offered : ∀ call ∈ calls, (s.launch plan turn).mayCall ⟨turn, plan, false⟩ call = true)
    (accepted : FactoryToolCall.applyAll calls s.thread.load = .ok final)
    (valid : validateCheckpointState config.order final checkpoint = .ok ()) :
    ∃ calls : List FactoryToolCall,
      Machine.Along (TaskLoop.step config) TaskLoop.Accepts (.reviewing (s.launch plan turn))
        (calls.map .tool) ∧
      validateCheckpointState config.order
        (Machine.run (TaskLoop.step config) (.reviewing (s.launch plan turn))
          (calls.map .tool)).state checkpoint = .ok () := by
  obtain ⟨along,reached⟩ := @TaskLoop.reviewing_calls config ⟨turn,plan,false⟩ calls final
    (s.launch plan turn) rfl rfl fresh offered accepted
  refine ⟨calls,along,?_⟩
  rw [reached]
  exact valid

namespace Resuming

theorem goto (h : Resuming config units s) (steady : t.Steady config.order units)
    (operation : t.operation = s.operation) (cached : t.thread.cached = s.thread.cached)
    (revision : t.thread.load.revision ≤ s.thread.load.revision) : Resuming config units t :=
  ⟨steady,operation.trans h.operation,cached.trans h.cached,revision.trans_lt h.below⟩

theorem passable (h : Resuming config units s) (permutes : ∀ ids, (config.order ids).Perm ids)
    (at_point : s.point = .start plan) : (reviewing s).Passable config plan := by
  intro turn issued
  have base := h.steady.base
  have point := h.steady.point
  rw [at_point] at point
  obtain ⟨-,startable,-⟩ := point
  have named := issues_named issued
  have unknown : turn.turnId ∉ s.started.map TurnRef.turnId := by
    intro member
    obtain ⟨earlier,known,same⟩ := List.mem_map.mp member
    exact issues_fresh issued earlier known same
  have fresh : s.thread.current = s.thread.load :=
    FactoryThreadState.current_of_cached (by simp [h.cached])
  have remediating := base.remediate h.operation
  have grounded := startable.grounded h.operation
  have built := startable.built
  refine ⟨_,checkpointOf_ok base.parent named startable.built,?_⟩
  rw [started_launch at_point startable.built issued]
  rw [h.operation] at built
  rcases built.remediating with role | role
  · obtain ⟨calls,final,staged,accepted,valid⟩ := base.grounds.own.remediation_passes permutes
      role remediating.reviewed h.below ((grounded.revision role).trans base.grounds.revision)
    refine launch_passes fresh (fun call member => ?_) accepted valid
    simp only [mayCall,role,staged call member]
    rfl
  · obtain ⟨generation,captured⟩ := Option.isSome_iff_exists.mp (built.generation.mp role)
    obtain ⟨parentTurnId,expected⟩ := Option.isSome_iff_exists.mp (built.parent.mp role)
    have separate : turn.threadId ≠ s.parentThreadId :=
      @issues_detached (.reviewing s) turn plan issued
        (by simp only [starting,at_point]) role
    have detached : Detached turn.turnId turn.threadId ⟨s.parentThreadId,parentTurnId⟩ :=
      ⟨named.turn,named.thread,base.parent,built.text parentTurnId expected,separate⟩
    obtain ⟨final,accepted,valid⟩ := base.grounds.own.review_passes permutes role
      remediating.reviewed h.below captured expected detached unknown
      ((grounded.generation role generation captured).trans base.grounds.generation)
    refine @launch_passes config s plan _ turn [_] final fresh (fun call member => ?_)
      (by rw [FactoryToolCall.applyAll,List.foldlM_cons,accepted]; rfl) valid
    rw [List.mem_singleton.mp member]
    simp only [mayCall,role,expected,Option.any_some,decide_eq_true_eq]
    rfl

theorem rollback_revision (h : Resuming config units s) :
    (rollbackDetachedReview s.thread).load.revision ≤ s.thread.load.revision := by
  rw [rollbackDetachedReview_load]
  exact h.steady.base.grounds.revision

theorem completes (h : Resuming config units s) (latest : s.latest = none) :
    Decides config (s.completeFromReview config) := by
  have base := h.steady.base
  have after := (base.remediate h.operation).first latest
  obtain ⟨named,built⟩ := (validate_iff s.previous).mp base.previous
  rw [after.operation] at built
  have role : s.previous.turnRole = .review := built.review
  have completed : completed .remediate s.previous.lineage .review 1
      s.previous.baselines = .ok (.build .completed .remediate s.previous.lineage .review 1
        s.previous.baselines) := by
    simp only [StageCheckpoint.completed,new,bind_ok,pure_ok]
    refine ⟨(),(validate_iff _).mpr ⟨named,rfl,?_,?_,built.text⟩,trivial⟩
    · exact ⟨fun _ => built.generation.mp role,fun _ => rfl⟩
    · exact ⟨fun _ => built.parent.mp role,fun _ => rfl⟩
  have valid : validateCheckpointState config.order s.thread.load
      (.build .completed .remediate s.previous.lineage .review 1 s.previous.baselines) = .ok () :=
    after.accepted
  simp only [StageLoop.completeFromReview,completed,valid]
  exact .now (.inl rfl)

variable (permutes : ∀ ids, (config.order ids).Perm ids) (h : Resuming config units s)

include permutes h

theorem start (at_point : s.point = .start plan) :
    Decides config s :=
  .now (.inr (.inr ⟨plan,by simp only [starting,at_point],
    h.passable permutes at_point⟩))

theorem prepare (at_point : s.point = .prepare plan) :
    Decides config s := by
  have advanced : s.advance config = { s with
      thread := s.thread.save s.thread.load.prepareReviewRecovery
      point := .start plan } := by
    simp only [advance,at_point]
  refine .later ?_
  have steady := h.steady.advance
  rw [advanced] at steady ⊢
  exact start permutes (h.goto steady rfl rfl h.steady.base.grounds.revision) rfl

theorem capture (at_point : s.point = .capture plan) :
    Decides config s := by
  have point := h.steady.point
  rw [at_point] at point
  have clean : s.compareWorktree.1 = false := by
    simp only [compareWorktree,ReviewWorktree.recover,point.1.1.1]
  have advanced : s.advance config = { s.compareWorktree.2 with
      worktree := ⟨some false,false⟩
      reviewer := none
      point := .prepare plan } := by
    simp only [advance,at_point,captureSnapshot,clean,Bool.false_eq_true,if_false]
  refine .later ?_
  have steady := h.steady.advance
  rw [advanced] at steady ⊢
  exact prepare permutes (h.goto steady rfl rfl (Nat.le_refl _)) rfl

theorem run (at_point : s.point = .run plan) :
    Decides config s := by
  refine .later ?_
  have steady := h.steady.advance
  by_cases role : plan.role = .review
  · have advanced : s.advance config = { s with
        thread := rollbackDetachedReview s.thread
        point := .capture plan } := by
      simp only [advance,at_point,role,if_true]
    rw [advanced] at steady ⊢
    exact capture permutes (h.goto steady rfl (rollbackDetachedReview_cached s.thread)
      h.rollback_revision) rfl
  · have advanced : s.advance config = { s with point := .start plan } := by
      simp only [advance,at_point,role,if_false]
    rw [advanced] at steady ⊢
    exact start permutes (h.goto steady rfl rfl (Nat.le_refl _)) rfl

theorem rollback (at_point : s.point = .rollback (.run plan)) :
    Decides config s := by
  have advanced : s.advance config = { s with
      thread := rollbackDetachedReview s.thread
      point := .run plan } := by
    simp only [advance,at_point,follow]
  refine .later ?_
  have steady := h.steady.advance
  rw [advanced] at steady ⊢
  exact run permutes (h.goto steady rfl (rollbackDetachedReview_cached s.thread)
    h.rollback_revision) rfl

theorem commit {next : Next} (at_point : s.point = .commit next) (proceeds : next ≠ .fail) :
    Decides config s := by
  have revision : (commitDetachedReview s.thread).load.revision = s.thread.load.revision := by
    rw [commitDetachedReview_load]
  refine .later ?_
  have steady := h.steady.advance
  cases next with
  | fail => exact absurd rfl proceeds
  | run plan =>
    have advanced : s.advance config = { s with
        thread := commitDetachedReview s.thread
        point := .run plan } := by
      simp only [advance,at_point,follow]
    rw [advanced] at steady ⊢
    exact run permutes (h.goto steady rfl (updateReviewRecovery_cached true s.thread)
      revision.le) rfl
  | complete checkpoint =>
    have advanced : s.advance config = { s with
        thread := commitDetachedReview s.thread
        point := .complete checkpoint } := by
      simp only [advance,at_point,follow]
    rw [advanced]
    exact .now (.inl rfl)

theorem retract (unguarded : s.Unguarded) (latest : s.latest = some checkpoint) :
    Decides config (s.retract checkpoint.turnRole (.run checkpoint.plan)) := by
  have steady := h.steady.base.retract unguarded latest (.inl rfl)
  by_cases role : checkpoint.turnRole = .review
  · simp only [StageLoop.retract,if_pos role] at steady ⊢
    exact rollback permutes (h.goto steady rfl rfl (Nat.le_refl _)) rfl
  · simp only [StageLoop.retract,if_neg role,follow] at steady ⊢
    exact run permutes (h.goto steady rfl rfl (Nat.le_refl _)) rfl

theorem accept (unguarded : s.Unguarded) (latest : s.latest = some checkpoint) {u : Unit}
    (accepted : validateCheckpointState config.order s.thread.load checkpoint = .ok u) :
    Decides config (s.accept config checkpoint) := by
  have steady := h.steady.base.accept unguarded latest accepted
  have concludes := @Base.concludes config.order units s checkpoint config h.steady.base latest
  simp only [StageLoop.accept] at steady ⊢
  generalize s.conclude config checkpoint = next at concludes steady
  by_cases role : checkpoint.turnRole = .review
  · simp only [if_pos role] at steady ⊢
    cases concludes with
    | complete | remediate =>
      exact commit permutes (h.goto steady rfl rfl (Nat.le_refl _)) rfl nofun
    | review _ other => cases role.symm.trans other
    | spent _ cycles => exact .now (.inr (.inl ⟨rfl,checkpoint,latest,role,cycles,accepted⟩))
  · simp only [if_neg role] at steady ⊢
    cases concludes with
    | complete => exact .now (.inl rfl)
    | review => exact run permutes (h.goto steady rfl rfl (Nat.le_refl _)) rfl
    | remediate _ other | spent other => exact absurd other role

theorem evaluate (at_point : s.point = .evaluate checkpoint true) :
    Decides config s := by
  have point := h.steady.point
  rw [at_point] at point
  obtain ⟨unguarded,latest⟩ := point
  have advanced : s.advance config = s.evaluate config checkpoint true := by
    simp only [advance,at_point]
  refine .later ?_
  rw [advanced]
  unfold StageLoop.evaluate
  split
  · exact retract permutes h unguarded latest
  · split
    · exact retract permutes h unguarded latest
    · next accepted => exact accept permutes h unguarded latest accepted

theorem enter (at_point : s.point = .enter) : Decides config s := by
  have base := h.steady.base
  refine .later ?_
  have steady := h.steady.advance
  cases latest : s.latest with
  | some checkpoint =>
    have phase := (base.latest checkpoint latest).phase
    have advanced : s.advance config = { s with point := .evaluate checkpoint true } := by
      simp only [advance,at_point,StageLoop.enter,latest,phase,ne_eq,not_false_eq_true,
        decide_true]
    rw [advanced] at steady ⊢
    exact evaluate permutes (h.goto steady rfl rfl (Nat.le_refl _)) rfl
  | none =>
    by_cases approved : StageLoop.approved config s.thread.load = true
    · have advanced : s.advance config = s.completeFromReview config := by
        simp only [advance,at_point,StageLoop.enter,latest,h.operation,approved,if_true]
      rw [advanced]
      exact h.completes latest
    · have advanced : s.advance config = { s with
          point := .run ⟨.remediation,1,⟨s.thread.load.revision,none,none⟩⟩ } := by
        simp only [advance,at_point,StageLoop.enter,latest,h.operation,approved,
          Bool.false_eq_true,if_false]
      rw [advanced] at steady ⊢
      exact run permutes (h.goto steady rfl rfl (Nat.le_refl _)) rfl

theorem acknowledge (at_point : s.point = .acknowledge .enter)
    (marked : s.worktree.snapshot = some true) : Decides config s := by
  have advanced : s.advance config = { s with
      worktree := { s.worktree with snapshot := none }
      point := .enter } := by
    simp only [advance,at_point,ReviewWorktree.acknowledge,marked,resume]
  refine .later ?_
  have steady := h.steady.advance
  rw [advanced] at steady ⊢
  exact enter permutes (h.goto steady rfl rfl (Nat.le_refl _)) rfl

theorem mutated (at_point : s.point = .mutated .enter) (marked : s.worktree.snapshot = some true) :
    Decides config s := by
  have advanced : s.advance config = { s with
      thread := rollbackDetachedReview s.thread
      point := .acknowledge .enter } := by
    simp only [advance,at_point]
  refine .later ?_
  have steady := h.steady.advance
  rw [advanced] at steady ⊢
  exact acknowledge permutes (h.goto steady rfl (rollbackDetachedReview_cached s.thread)
    h.rollback_revision) rfl marked

theorem recover (at_point : s.point = .recover) :
    Decides config s := by
  refine .later ?_
  have steady := h.steady.advance
  rcases s.worktree.recover_cases with ⟨clean,-⟩ | ⟨changed,-,marked⟩
  · have advanced : s.advance config = { s.compareWorktree.2 with point := .enter } := by
      have same : s.compareWorktree.1 = false := clean
      simp only [advance,at_point,same,Bool.false_eq_true,if_false]
    rw [advanced] at steady ⊢
    exact enter permutes (h.goto steady rfl rfl (Nat.le_refl _)) rfl
  · have advanced : s.advance config = { s.compareWorktree.2 with point := .mutated .enter } := by
      have same : s.compareWorktree.1 = true := changed
      simp only [advance,at_point,same,if_true]
    rw [advanced] at steady ⊢
    exact mutated permutes (h.goto steady rfl rfl (Nat.le_refl _)) rfl marked

end Resuming

theorem Steady.unwedged (h : s.Steady config.order units)
    (permutes : ∀ ids, (config.order ids).Perm ids) (idle : s.point = .idle)
    (operation : s.operation = .remediate) (below : s.thread.load.revision < u64Max) :
    (TaskLoop.reviewing s).Unwedged config := by
  have quiet := h.point
  rw [idle] at quiet
  have operates : s.operation ≠ .iterate := by
    rw [operation]
    nofun
  have attempted : TaskLoop.step config (.reviewing s) .attempt =
      .reviewing { s with point := .recover } := by
    have stepped : s.step config .attempt = { s with point := .recover } := by
      rw [StageLoop.step,if_pos ⟨idle,operates⟩]
    exact congrArg TaskLoop.reviewing stepped
  have resuming : Resuming config units { s with point := .recover } :=
    ⟨⟨h.base.goto _,quiet,operates⟩,operation,quiet.1,below⟩
  obtain ⟨steps,settles⟩ := resuming.recover permutes rfl
  refine ⟨steps,?_⟩
  have run : (TaskLoop.reviewing s).nextRun config steps = Machine.run (TaskLoop.step config)
      (.reviewing { s with point := .recover }) (List.replicate steps .advance) := by
    rw [← attempted]
    rfl
  rw [run]
  exact settles

end StageLoop

end Runtime
