import Factory.Runtime.ExecuteProgress
import Factory.Runtime.RemediateProgress

namespace Runtime

open Extension Result TaskLoop FactoryThreadState

namespace StageLoop

variable {config : ExecutorConfig} {order : List String → List String}
  {units : List WorkUnitArgs} {s : StageLoop} {checkpoint : StageCheckpoint} {plan : TurnPlan}
  {turn : TurnRef} {next : Next}

theorem Quiet.rollback (h : s.Quiet) :
    Quiet { s with thread := rollbackDetachedReview s.thread } :=
  ⟨(rollbackDetachedReview_cached s.thread).trans h.1,h.2⟩

theorem startable_rollback (h : Startable s.operation s.latest s.thread.load plan) :
    Startable s.operation s.latest (rollbackDetachedReview s.thread).load plan := by
  rw [rollbackDetachedReview_load]
  exact h.rollback

theorem Supports.busy {point : Point} {thread : FactoryThreadState} {running : Option RunningTurn}
    (supports : s.Supports order point) (busy : s.turn ≠ none)
    (startable : ∀ plan, (∀ active ∈ s.turn, active.plan = plan) →
      Startable s.operation s.latest s.thread.load plan →
        Startable s.operation s.latest thread.load plan)
    (unprepared : s.thread.load.reviewRecovery = none → thread.load.reviewRecovery = none)
    (own : ∀ active ∈ running, ∃ earlier ∈ s.turn, active.plan = earlier.plan) :
    Supports order { s with thread := thread, turn := running } point := by
  have underway : ∀ {plan turn}, s.Underway plan turn →
      Underway { s with thread := thread, turn := running } plan turn := by
    intro plan turn under
    refine ⟨startable plan under.own under.startable,under.named,fun active held => ?_,
      under.snapshot⟩
    obtain ⟨earlier,known,same⟩ := own active held
    exact same.trans (under.own earlier known)
  cases point with
  | await plan turn => exact underway supports
  | wait plan turn => exact ⟨underway supports.1,supports.2⟩
  | compare outcome => exact ⟨supports.1,fun checkpoint hit =>
    absurd (supports.2 checkpoint hit).2 busy⟩
  | mutated resumption => exact .inl (supports.resolve_right fun quiet => busy quiet.1.2)
  | acknowledge resumption =>
    exact ⟨unprepared supports.1,.inl (supports.2.resolve_right fun quiet => busy quiet.1.2)⟩
  | rollback next =>
    cases next with
    | run plan => exact absurd supports.1.2 busy
    | complete checkpoint => exact supports
    | fail => exact trivial
  | commit next =>
    cases next with
    | run plan => exact absurd supports.1.2 busy
    | complete checkpoint => exact absurd supports.1 busy
    | fail => exact absurd supports busy
  | idle | cleanup | cleanupRollback | record => exact absurd supports.2 busy
  | recover | enter | evaluate | run => exact absurd supports.1.2 busy
  | capture plan => exact absurd supports.1.1.2 busy
  | prepare | start | complete => exact absurd supports.1 busy

namespace Steady

section Advancing

variable (base : s.Base order units)

include base

theorem recover (quiet : s.Quiet) (operates : s.operation ≠ .iterate) :
    Steady order units { s.compareWorktree.2 with
      point := if s.compareWorktree.1 then .mutated .enter else .enter } := by
  split
  · exact ⟨base.compare.goto _,.inr ⟨quiet,fun _ => operates⟩⟩
  · next clean =>
    exact ⟨base.compare.goto _,
      ⟨compareWorktree_snapshot (Bool.eq_false_iff.mpr clean),quiet.2⟩,operates⟩

theorem rollback (supports : s.Supports order (.rollback next)) :
    ({ s with thread := rollbackDetachedReview s.thread }.follow next).Steady order units := by
  cases next with
  | run plan => exact ⟨base.rollback.goto _,supports.1,startable_rollback supports.2⟩
  | complete checkpoint => exact supports.elim
  | fail => exact base.rollback.abort (Base.unprepared (rollbackDetachedReview_recovery s.thread))

theorem commit (supports : s.Supports order (.commit next)) :
    ({ s with thread := commitDetachedReview s.thread }.follow next).Steady order units := by
  have load := commitDetachedReview_load s.thread
  cases next with
  | run plan =>
    refine ⟨base.commit.goto _,supports.1,?_⟩
    change Startable s.operation s.latest (commitDetachedReview s.thread).load plan
    rw [load]
    exact supports.2.startable
  | complete checkpoint =>
    refine ⟨base.commit.goto _,supports.1,?_,fun _ => congrArg FactoryState.reviewRecovery load⟩
    change Accepted order s.operation (commitDetachedReview s.thread).load checkpoint
    rw [load]
    exact supports.2.commit
  | fail => exact base.commit.abort (base.commit.anchored supports)

theorem run (waits : s.Waits plan) :
    Steady order units (if plan.role = .review then
      { s with thread := rollbackDetachedReview s.thread, point := .capture plan }
      else { s with point := .start plan }) := by
  split
  · next role => exact ⟨base.rollback.goto _,⟨waits.1,startable_rollback waits.2⟩,role⟩
  · next role =>
    refine ⟨base.goto _,waits.1.2,waits.2,fun review => absurd review role,fun held => ?_⟩
    exact absurd waits.1.1 held

theorem capture (waits : s.Waits plan) (role : plan.role = .review) :
    (s.captureSnapshot plan).Steady order units := by
  unfold captureSnapshot
  dsimp only
  split
  · exact base.compare.abort (base.compare.anchored waits.1.2)
  · exact ⟨⟨base.grounds,base.parent,base.kind,base.previous,base.latest,base.running,
      base.remediate⟩,waits.1.2,waits.2,role,nofun⟩

theorem await (underway : s.Underway plan turn) :
    Steady order units
      { s.write (buildTurn s.operation s.parentThreadId .awaitingTurn plan turn) with
        point := .wait plan turn } := by
  have startable := underway.startable
  have written := @Base.write order units s plan turn base .awaitingTurn startable
    underway.named nofun
  exact ⟨written.goto _,⟨⟨startable.built,startable.grounded,startable.level,fun _ _ => nofun⟩,
    underway.named,underway.own,underway.snapshot⟩,_,rfl,rfl⟩

theorem wait (underway : s.Underway plan turn)
    (written : ∃ checkpoint ∈ s.latest, checkpoint.turnRole = plan.role) :
    Steady order units { s with turn := none, point := .record plan turn } := by
  obtain ⟨checkpoint,latest,role⟩ := written
  have anchored : s.Anchored := by
    intro operation other hit remediation
    obtain rfl : checkpoint = other := Option.some.inj (latest.symm.trans hit)
    exact underway.startable.level operation (role.symm.trans remediation)
  exact ⟨(base.idle anchored).goto _,
    ⟨underway.startable,underway.named,nofun,underway.snapshot⟩,rfl⟩

theorem record (underway : s.Underway plan turn) (idle : s.turn = none) :
    Steady order units
      { s.write (buildTurn s.operation s.parentThreadId .turnCompleted plan turn) with
        point := if plan.role = .review then
          .compare (some (buildTurn s.operation s.parentThreadId .turnCompleted plan turn))
          else .evaluate (buildTurn s.operation s.parentThreadId .turnCompleted plan turn)
            false } := by
  have written := @Base.write order units s plan turn base .turnCompleted underway.startable
    underway.named nofun
  split
  · next role =>
    refine ⟨written.goto _,underway.snapshot.mp role,fun checkpoint hit => ?_⟩
    cases hit
    exact ⟨rfl,idle⟩
  · next role =>
    exact ⟨written.goto _,⟨not_not.mp fun held => role (underway.snapshot.mpr held),idle⟩,rfl⟩

theorem compare {outcome : Option StageCheckpoint}
    (supports : s.Supports order (.compare outcome)) :
    (s.compareTurn outcome).Steady order units := by
  unfold compareTurn
  rw [if_neg supports.1]
  dsimp only
  split
  · exact ⟨base.compare.goto _,.inl rfl⟩
  · next clean =>
    cases outcome with
    | none => exact ⟨base.compare.goto _,trivial⟩
    | some checkpoint =>
      obtain ⟨latest,idle⟩ := supports.2 checkpoint rfl
      exact ⟨base.compare.goto _,
        ⟨compareWorktree_snapshot (Bool.eq_false_iff.mpr clean),idle⟩,latest⟩

theorem mutated {resumption : Resumption} (reverts : s.Reverts resumption) :
    Steady order units { s with
      thread := rollbackDetachedReview s.thread, point := .acknowledge resumption } := by
  refine ⟨base.rollback.goto _,rollbackDetachedReview_recovery s.thread,?_⟩
  exact reverts.imp_right fun ⟨quiet,operates⟩ => ⟨quiet.rollback,operates⟩

theorem resume (none : s.thread.load.reviewRecovery = none) {resumption : Resumption}
    (reverts : s.Reverts resumption)
    (clear : resumption = .enter → s.worktree.snapshot = Option.none) :
    (s.resume resumption).Steady order units := by
  cases resumption with
  | fail => exact base.abort (Base.unprepared none)
  | enter =>
    obtain ⟨quiet,operates⟩ := reverts.resolve_left nofun
    exact ⟨base.goto _,⟨clear rfl,quiet.2⟩,operates rfl⟩
  | stop => exact ⟨base.goto _,(reverts.resolve_left nofun).1⟩

theorem settle (accepted : Accepted order s.operation s.thread.load checkpoint)
    (committed : s.operation = .review → s.thread.load.reviewRecovery = none) :
    (s.settle checkpoint).Steady order units := by
  obtain ⟨named,-⟩ := (StageCheckpoint.validate_iff checkpoint).mp accepted.valid
  refine ⟨⟨base.grounds.map fun _ sane => sane.idle,named.parent,?_,accepted.valid,by rintro _ ⟨⟩,
    by rintro _ ⟨⟩,fun operation => ?_⟩,rfl,rfl⟩
  · simp only [StageLoop.settle]
    split
    · exact .inr (.inl rfl)
    · exact .inr (.inr rfl)
  · have review : s.operation = .review := by
      by_contra other
      simp only [StageLoop.settle,if_neg other] at operation
      cases operation
    obtain ⟨same,reviewed⟩ := accepted.review review
    have recovery := committed review
    have found : s.thread.load.review ≠ none := by
      simp only [validateReviewTurn,bind_ok,okOr_ok] at reviewed
      obtain ⟨_,_,_,_,report,found,_⟩ := reviewed
      exact Option.ne_none_iff_exists'.mpr ⟨report,found⟩
    refine ⟨found,?_,fun _ => ⟨same,reviewed,recovery⟩,by rintro - _ ⟨⟩,by rintro _ ⟨⟩,
      by rintro _ ⟨⟩⟩
    change (restored s.thread.load).review ≠ none
    rw [restored_none recovery]
    exact found

end Advancing

theorem advance (h : s.Steady config.order units) :
    (s.advance config).Steady config.order units := by
  have base := h.base
  have point := h.point
  unfold StageLoop.advance
  generalize s.point = here at point ⊢
  cases here with
  | idle | start => exact h
  | recover => exact recover base point.1 point.2
  | enter => exact base.enter point.1 point.2
  | evaluate checkpoint mayRerun => exact base.evaluate point.1 point.2 mayRerun
  | rollback next => exact rollback base point
  | commit next => exact commit base point
  | run plan => exact run base point
  | capture plan => exact capture base point.1 point.2
  | prepare plan =>
    obtain ⟨idle,startable,role,snapshot⟩ := point
    exact ⟨(base.prepare fun operation => startable.later operation role).goto _,idle,
      startable.prepare role,fun _ => snapshot,fun _ => role⟩
  | await plan turn =>
    dsimp only
    rw [checkpointOf_ok base.parent point.named point.startable.built]
    exact await base point
  | wait plan turn =>
    dsimp only
    split
    · exact wait base point.1 point.2
    · exact h
  | record plan turn =>
    dsimp only
    rw [checkpointOf_ok base.parent point.1.named point.1.startable.built]
    exact record base point.1 point.2
  | compare outcome => exact compare base point
  | mutated resumption => exact mutated base point
  | acknowledge resumption =>
    obtain ⟨none,reverts⟩ := point
    dsimp only
    split
    · split
      · next stopped => exact ⟨base.goto _,(reverts.resolve_left (by simp [stopped])).1⟩
      · exact base.abort (Base.unprepared none)
    · next worktree acknowledged =>
      exact @resume config.order units { s with worktree := worktree }
        ⟨base.grounds,base.parent,base.kind,base.previous,base.latest,base.running,
          base.remediate⟩ none resumption reverts fun _ =>
            ReviewWorktree.acknowledge_snapshot acknowledged
  | complete checkpoint => exact settle base point.2.1 point.2.2
  | cleanup =>
    dsimp only
    split
    · exact ⟨base.compare.goto _,.inr ⟨point,nofun⟩⟩
    · exact ⟨base.compare.goto _,point⟩
  | cleanupRollback => exact ⟨base.rollback.goto _,point.rollback⟩

theorem turnError (base : s.Base order units) (anchored : s.Anchored)
    (snapshot : plan.role = .review → s.worktree.snapshot ≠ none) :
    (s.turnError plan).Steady order units := by
  unfold StageLoop.turnError
  split
  · next role => exact ⟨base.goto _,snapshot role,nofun⟩
  · exact base.abort anchored

variable {thread : FactoryThreadState}

theorem stays (state : FactoryState) (running : Option RunningTurn) : Moves running state state :=
  ⟨.refl state,rfl,rfl,.inl rfl⟩

theorem called (base : s.Base order units) {active : RunningTurn} (running : s.turn = some active)
    {call : FactoryToolCall} (may : s.mayCall active call = true)
    (fresh : s.thread.current = s.thread.load) :
    Grounds units (s.started.map TurnRef.turnId) s.turn (s.thread.call call).load ∧
      Moves s.turn s.thread.load (s.thread.call call).load := by
  have runs := base.running active running
  have grounds := base.grounds
  obtain ⟨loaded,-⟩ := @call_load s.thread call fresh
  rw [loaded]
  cases outcome : call.apply s.thread.load with
  | error e => exact ⟨grounds,stays _ _⟩
  | ok next =>
    unfold mayCall at may
    cases role : active.plan.role with
    | review =>
      rw [running] at grounds ⊢
      cases call with
      | review provenance args =>
        simp only [role,Option.any_eq_true,decide_eq_true_eq] at may
        obtain ⟨parentTurnId,expected,rfl⟩ := may
        have detached : Detached active.turn.turnId active.turn.threadId
            ⟨s.parentThreadId,parentTurnId⟩ :=
          ⟨runs.named.turn,runs.named.thread,base.parent,
            runs.built.text parentTurnId expected,runs.detached role⟩
        have reviewed := grounds.review role detached runs.started outcome
        exact ⟨reviewed.1,moves_review role outcome reviewed.2⟩
      | decompose | progress | remediation => simp [role] at may
    | stage | remediation =>
      cases call with
      | remediation dispositions =>
        have remediated := grounds.remediation outcome fun other held => by
          obtain rfl : active = other := Option.some.inj (running.symm.trans held)
          rw [role]
          nofun
        exact ⟨remediated.1,moves_remediation outcome remediated.2⟩
      | decompose | progress | review =>
        simp [role,OperationKind.turnStage,FactoryToolCall.stage] at may

theorem upserted {turnIds : List String} {running : Option RunningTurn}
    (activities : List (FactorySubagentActivity × Option Nat))
    (grounds : Grounds units turnIds running thread.load) (fresh : thread.current = thread.load) :
    Grounds units turnIds running (upsertActivities activities thread).load := by
  induction activities generalizing thread with
  | nil => exact grounds
  | cons entry rest ih =>
    obtain ⟨loaded,current⟩ := activity_load fresh entry.1 entry.2
    refine ih ?_ current
    rw [loaded]
    exact (grounds.activity entry.1 entry.2).1

section Steadiness

variable (h : s.Steady order units)

include h

theorem fail (anchored : s.Anchored) :
    s.failed.Steady order units := by
  have base := h.base
  have point := h.point
  unfold failed
  generalize s.point = here at point ⊢
  cases here with
  | idle => exact h
  | start plan => exact turnError base anchored point.2.2.mp
  | await plan turn => exact turnError base anchored point.snapshot.mp
  | wait plan turn | record plan turn => exact turnError base anchored point.1.snapshot.mp
  | cleanup | cleanupRollback => exact ⟨base.goto _,point⟩
  | mutated resumption =>
    cases resumption with
    | stop => exact ⟨base.goto _,(point.resolve_left nofun).1⟩
    | enter | fail => exact base.abort anchored
  | acknowledge resumption =>
    cases resumption with
    | stop => exact ⟨base.goto _,(point.2.resolve_left nofun).1⟩
    | enter | fail => exact base.abort anchored
  | recover | enter | evaluate | rollback | commit | run | capture | prepare | compare | complete =>
    exact base.abort anchored

theorem started (named : turn.Named) (fresh : ∀ earlier ∈ s.started, earlier.turnId ≠ turn.turnId)
    (detached : ∀ plan, s.point = .start plan → plan.role = .review →
      turn.threadId ≠ s.parentThreadId) : (s.beginTurn turn).Steady order units := by
  have base := h.base
  have point := h.point
  unfold beginTurn
  split
  · next plan at_point =>
    rw [at_point] at point
    obtain ⟨idle,startable,snapshot⟩ := point
    split
    · exact turnError base (base.anchored idle) snapshot.mp
    · split
      · exact h
      · have unknown : turn.turnId ∉ s.started.map TurnRef.turnId := by
          intro member
          obtain ⟨earlier,known,same⟩ := List.mem_map.mp member
          exact fresh earlier known same
        have grounds := base.grounds
        rw [idle] at grounds
        refine ⟨⟨grounds.map fun _ sane => @Sane.begin _ _ _ sane ⟨turn,plan,false⟩ unknown,
          base.parent,base.kind,base.previous,base.latest,fun active held => ?_,
          fun operation => ?_⟩,startable,named,fun active held => ?_,snapshot⟩
        · cases held
          exact ⟨startable.built,named,List.mem_cons_self,detached plan at_point⟩
        · have remediate := base.remediate operation
          rw [idle] at remediate
          exact remediate.begin (startable.later operation)
        · cases held
          rfl
  · exact h

theorem moves (busy : s.turn ≠ none)
    (grounds : Grounds units (s.started.map TurnRef.turnId) s.turn thread.load)
    (m : Moves s.turn s.thread.load thread.load) :
    Steady order units { s with thread := thread } := by
  refine ⟨h.base.during grounds fun operation => (h.base.remediate operation).moves m,
    Supports.busy h.point busy (fun plan own startable => ?_) m.recovery.trans
      fun active held => ⟨active,held,rfl⟩⟩
  exact startable.moves m own fun operation => (h.base.remediate operation).reviewed

theorem rolledBack (busy : s.turn ≠ none) :
    Steady order units { s with thread := rollbackDetachedReview s.thread } := by
  refine ⟨h.base.rollback,Supports.busy h.point busy (fun _ _ => startable_rollback)
    (fun _ => ?_) fun active held => ⟨active,held,rfl⟩⟩
  rw [rollbackDetachedReview_load]
  exact restored_recovery _

theorem updated {f : FactoryThreadState → FactoryThreadState} (busy : s.turn ≠ none)
    (settled : ∀ cached ∈ s.thread.cached,
      cached = s.thread.load ∨ cached = restored s.thread.load)
    (written : ∀ thread other : FactoryThreadState, other.current = thread.current →
      (f thread).load = thread.load ∨ (f thread).load = (f other).load)
    (moved : ∀ thread : FactoryThreadState, thread.current = thread.load →
      Base order units { s with thread := thread } →
        Grounds units (s.started.map TurnRef.turnId) s.turn (f thread).load ∧
          Moves s.turn thread.load (f thread).load) :
    Steady order units { s with thread := f s.thread } := by
  have read : s.thread.current = s.thread.load ∨
      (rollbackDetachedReview s.thread).current = s.thread.current ∧
        s.thread.current = restored s.thread.load := by
    cases cached : s.thread.cached with
    | none => exact .inl (current_of_cached (by simp [cached]))
    | some state =>
      have held : ∀ {thread : FactoryThreadState}, thread.cached = some state →
          thread.current = state := fun same => by simp [current,same]
      rw [held cached,held ((rollbackDetachedReview_cached s.thread).trans cached)]
      exact (settled state cached).imp_right fun same => ⟨rfl,same⟩
  rcases read with fresh | ⟨same,stale⟩
  · obtain ⟨grounds,m⟩ := moved s.thread fresh h.base
    exact h.moves busy grounds m
  · rcases written s.thread _ same with kept | next
    · exact h.moves busy (kept ▸ h.base.grounds) (kept ▸ stays _ _)
    · have rolled := h.rolledBack busy
      have fresh := same.trans (stale.trans (rollbackDetachedReview_load s.thread).symm)
      obtain ⟨grounds,m⟩ := moved _ fresh rolled.base
      rw [← next] at grounds m
      exact rolled.moves busy grounds m

theorem duringTurn {f : RunningTurn → FactoryThreadState → FactoryThreadState}
    (steady : ∀ active, s.turn = some active →
      Steady order units { s with thread := f active s.thread }) :
    (s.duringTurn f).Steady order units := by
  unfold StageLoop.duringTurn
  split
  · exact h
  · next active running =>
    split
    · exact h
    · exact steady active running

theorem tool (call : FactoryToolCall)
    (settled : s.turn ≠ none → ∀ cached ∈ s.thread.cached,
      cached = s.thread.load ∨ cached = restored s.thread.load) :
    (s.step config (.tool call)).Steady order units := by
  refine h.duringTurn fun active running => ?_
  split
  · next may =>
    have busy : s.turn ≠ none := by simp [running]
    exact h.updated busy (settled busy) (fun _ _ => call_congr)
      fun thread fresh base => called base running may fresh
  · exact h

theorem finish : (s.step config .finish).Steady order units := by
  have base := h.base
  simp only [StageLoop.step]
  split
  · exact h
  · next active running =>
    have busy : s.turn ≠ none := by simp [running]
    have runs := base.running active running
    refine ⟨⟨base.grounds.map fun _ sane => sane.finish running,base.parent,base.kind,
      base.previous,base.latest,fun other held => ?_,fun operation => ?_⟩,?_⟩
    · cases held
      exact ⟨runs.built,runs.named,runs.started,runs.detached⟩
    · have remediate := base.remediate operation
      rw [running] at remediate
      exact remediate.finish
    · refine Supports.busy h.point busy (fun _ _ => id) id fun other held => ?_
      cases held
      exact ⟨active,running,rfl⟩

theorem iterated {previous : StageCheckpoint} (valid : previous.validate = .ok ())
    (activities : List (FactorySubagentActivity × Option Nat)) :
    (s.step config (.iterated previous activities)).Steady order units := by
  have base := h.base
  simp only [StageLoop.step]
  split
  · next idle =>
    have quiet := h.point
    rw [idle.1] at quiet
    have fresh : s.thread.current = s.thread.load :=
      current_of_cached (by simp [quiet.1])
    obtain ⟨named,-⟩ := (StageCheckpoint.validate_iff previous).mp valid
    refine ⟨⟨upserted activities base.grounds fresh,named.parent,.inl rfl,valid,by simp,
      fun active held => ?_,by simp⟩,?_⟩
    · exact absurd (quiet.2.symm.trans held) (by simp)
    · simp only [idle.1]
      exact ⟨rfl,quiet.2⟩
  · exact h

end Steadiness

theorem sheltered_anchored (base : s.Base order units)
    (sheltered : (reviewing s).Sheltered .crash) : s.Anchored := by
  intro operation checkpoint latest role
  refine ((base.remediate operation).level checkpoint latest role).resolve_right ?_
  rintro ⟨active,held,reviews,report,found,recorded⟩
  refine sheltered operation (fun other hit => ?_) active held reviews report found recorded
  obtain rfl : checkpoint = other := Option.some.inj (latest.symm.trans hit)
  exact role

theorem step (h : s.Steady config.order units) {input : LoopStep}
    (admitted : (reviewing s).admits input = true)
    (sheltered : (reviewing s).Sheltered input) :
    (s.step config input).Steady config.order units := by
  cases input with
  | attempt =>
    simp only [StageLoop.step]
    split
    · next idle =>
      have quiet := h.point
      rw [idle.1] at quiet
      exact ⟨h.base.goto _,quiet,idle.2⟩
    · exact h
  | advance => exact h.advance
  | started turn =>
    refine h.started (issues_named admitted) (issues_fresh admitted) ?_
    intro plan at_point role
    refine @issues_detached (.reviewing s) turn plan admitted ?_ role
    simp only [starting,at_point]
  | fail => exact h.fail (sheltered_anchored h.base sheltered)
  | crash => exact h.base.stop (sheltered_anchored h.base sheltered)
  | prompt =>
    refine h.duringTurn fun active running => ?_
    exact h.moves (by simp [running]) h.base.grounds (stays _ _)
  | tool call => exact h.tool call sheltered
  | activity activity archive =>
    refine h.duringTurn fun active running => ?_
    have busy : s.turn ≠ none := by simp [running]
    refine h.updated busy (sheltered busy) (fun _ _ => update_congr) fun thread fresh base => ?_
    obtain ⟨loaded,-⟩ := activity_load fresh activity archive
    rw [loaded]
    exact ⟨(base.grounds.activity activity archive).1,
      moves_activity base.grounds activity archive⟩
  | mutate => exact ⟨⟨h.base.grounds,h.base.parent,h.base.kind,h.base.previous,h.base.latest,
      h.base.running,h.base.remediate⟩,h.point⟩
  | finish => exact h.finish
  | iterated previous activities =>
    refine h.iterated ?_ activities
    simp only [admits] at admitted
    cases outcome : previous.validate with
    | ok value => rfl
    | error error =>
      rw [outcome] at admitted
      cases admitted

end Steady

end StageLoop

end Runtime
