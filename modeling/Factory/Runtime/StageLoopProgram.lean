import Factory.Runtime.StageLoopInvariant

namespace Runtime

open Extension

namespace StageLoop

variable {config : ExecutorConfig} {s : StageLoop}

variable {checkpoint completed : StageCheckpoint} {plan : TurnPlan} {resumption : Resumption}

theorem conclude_complete (h : s.conclude config checkpoint = .complete completed)
    (op : s.operation = .remediate) :
    checkpoint.turnRole ≠ .stage ∧
      ∃ report, s.thread.load.review = some report ∧ report.verdict = .approve := by
  unfold conclude at h
  simp only [op] at h
  split at h
  · cases h
  · next report found =>
      cases role : checkpoint.turnRole with
      | remediation | review =>
        simp only [role] at h
        split at h
        · next approve => exact ⟨nofun,report,found,approve⟩
        · split at h <;> cases h
      | stage =>
        simp only [role] at h
        cases h

theorem finalize_phase (h : finalize checkpoint = .complete completed) :
    completed.phase = .completed := by
  unfold finalize at h
  split at h
  · next built =>
      cases h
      rw [(StageCheckpoint.new_ok built).1]
      rfl
  · cases h

theorem conclude_phase (completed : StageCheckpoint)
    (h : s.conclude config checkpoint = .complete completed) : completed.phase = .completed := by
  unfold conclude at h
  split at h
  · split at h
    · cases h
    · split at h
      · split at h
        · exact finalize_phase h
        · split at h <;> cases h
      · split at h
        · exact finalize_phase h
        · split at h <;> cases h
      · cases h
  · exact finalize_phase h

theorem ready_of_unguarded (unguarded : s.Unguarded) {next : Next}
    (phase : ∀ checkpoint, next = .complete checkpoint → checkpoint.phase = .completed)
    (completes : ∀ checkpoint, next = .complete checkpoint → s.operation = .remediate →
      s.ApprovedByReview) : s.Ready next := by
  cases next with
  | run plan => exact unguarded
  | complete checkpoint => exact ⟨unguarded,phase checkpoint rfl,completes checkpoint rfl⟩
  | fail => trivial

theorem Core.compareTurn (h : s.Core) {outcome : Option StageCheckpoint}
    (at_point : ∀ checkpoint ∈ outcome, checkpoint ∈ s.written ∧ s.turn = none) :
    (s.compareTurn outcome).Vetted := by
  unfold StageLoop.compareTurn
  split
  · exact h.abort
  · dsimp only
    split
    · exact ⟨h.compare.goto _,.inl rfl⟩
    · next unchanged =>
        have removed := compareWorktree_snapshot (Bool.eq_false_iff.mpr unchanged)
        cases outcome with
        | none => exact ⟨h.compare.goto _,trivial⟩
        | some checkpoint =>
          obtain ⟨written,idle⟩ := at_point checkpoint rfl
          exact ⟨h.compare.goto _,⟨removed,idle⟩,written⟩

section Unguarded

variable (h : s.Core) (unguarded : s.Unguarded)

include h unguarded

theorem Core.accept {u : Unit} (observed : s.Observed checkpoint.turn)
    (valid : validateCheckpointState config.order s.thread.load checkpoint = .ok u)
    (unapproved : checkpoint.turnRole = .remediation →
      ∀ report ∈ s.thread.load.review, report.verdict ≠ .approve) :
    (s.accept config checkpoint).Vetted := by
  unfold StageLoop.accept
  dsimp only
  split
  · next role =>
      have core : Core { s with validated := checkpoint.turn :: s.validated } :=
        ⟨h.thread,h.turn,h.previous,h.latest⟩
      have ready : Ready { s with validated := checkpoint.turn :: s.validated }
          (s.conclude config checkpoint) := by
        apply ready_of_unguarded
        · exact unguarded
        · exact conclude_phase
        intro completed concluded op
        obtain ⟨_,report,found,approve⟩ := conclude_complete concluded op
        obtain ⟨recorded,present,recordedBy⟩ := validateCheckpointState_review valid role
        cases found.symm.trans present
        exact core.approvedByReview unguarded found approve recordedBy List.mem_cons_self observed
      exact ⟨core.goto _,ready⟩
  · next text =>
      refine h.follow _
        (ready_of_unguarded unguarded conclude_phase fun completed concluded op => ?_)
      obtain ⟨staged,report,found,approve⟩ := conclude_complete concluded op
      cases role : checkpoint.turnRole with
      | stage => exact absurd role staged
      | remediation => exact absurd approve (unapproved role report found)
      | review => exact absurd role text

theorem Core.evaluate {mayRerun : Bool} (written : checkpoint ∈ s.written)
    (unapproved : checkpoint.turnRole = .remediation →
      ∀ report ∈ s.thread.load.review, report.verdict ≠ .approve) :
    (s.evaluate config checkpoint mayRerun).Vetted := by
  unfold StageLoop.evaluate
  split
  · exact h.retract unguarded
  · next finished =>
      have observed : s.Observed checkpoint.turn := by
        by_cases awaiting : checkpoint.phase = .awaitingTurn
        · exact .inl (not_not.mp fun missing => finished ⟨awaiting,missing⟩)
        · exact .inr ⟨checkpoint,written,awaiting,rfl⟩
      split
      · cases mayRerun with
        | true => exact h.retract unguarded
        | false => exact h.retract trivial
      · next valid => exact h.accept unguarded observed valid unapproved

theorem Core.completeFromReview (approve : approved config s.thread.load = true) :
    (s.completeFromReview config).Vetted := by
  unfold StageLoop.completeFromReview
  split
  · exact h.abort
  · next completed built =>
      split
      · exact h.abort
      · next valid =>
          have core : Core { s with validated := s.previous.turn :: s.validated } :=
            ⟨h.thread,h.turn,h.previous,h.latest⟩
          have shape := (StageCheckpoint.new_ok built).1
          refine ⟨core.goto _,unguarded,congrArg (·.phase) shape,fun _ => ?_⟩
          obtain ⟨report,found,recorded⟩ :=
            validateCheckpointState_review valid (congrArg (·.turnRole) shape)
          have verdict : report.verdict = .approve := by
            simp only [approved,found,Option.any_some,Bool.and_eq_true,
              decide_eq_true_eq] at approve
            exact approve.2
          have turn : completed.turn = s.previous.turn := by rw [shape]; rfl
          rw [turn] at recorded
          have done : s.previous.phase ≠ .awaitingTurn := by rw [h.previous.2]; exact nofun
          exact core.approvedByReview unguarded found verdict recorded List.mem_cons_self
            (.inr ⟨s.previous,h.previous.1,done,rfl⟩)

theorem Core.enter : (s.enter config).Vetted := by
  unfold StageLoop.enter
  split
  · next checkpoint latest => exact ⟨h.goto _,unguarded,h.latest checkpoint latest⟩
  · split
    · split
      · next approve => exact h.completeFromReview unguarded approve
      · exact ⟨h.goto _,unguarded⟩
    · split
      · exact h.abort
      · exact ⟨h.goto _,unguarded⟩

theorem Core.captureSnapshot (role : plan.role = .review) :
    (s.captureSnapshot plan).Vetted := by
  unfold StageLoop.captureSnapshot
  dsimp only
  split
  · exact h.compare.abort
  · next unchanged =>
      have removed := compareWorktree_snapshot (Bool.eq_false_iff.mpr unchanged)
      have settled : s.compareWorktree.2.trusted = s.compareWorktree.2.clean :=
        Unguarded.trusted ⟨removed,unguarded.2⟩
      refine ⟨⟨?_,fun running hit => ?_,h.previous,h.latest⟩,unguarded.2,rfl,rfl,role⟩
      · have thread := h.compare.thread
        rw [settled] at thread
        exact thread
      · cases unguarded.2.symm.trans hit

end Unguarded

theorem Core.mutated (h : s.Core) (quiet : resumption = .fail ∨ s.Quiet)
    (kept : s.thread.load.reviewRecovery.isSome ∨
      ∀ turn ∈ s.reviewer, ∀ report ∈ s.thread.load.review, ¬ recordedBy turn report) :
    Vetted { s with
      thread := rollbackDetachedReview s.thread, point := .acknowledge resumption } := by
  refine ⟨h.rollback.goto _,?_,?_⟩
  · have restored := rollbackReviewRecovery_vouched h.thread.durable
      (kept.imp_right fun other => ?_)
    · rw [← rollbackDetachedReview_load] at restored
      exact restored
    · intro report found
      obtain ⟨turn,known,recorded⟩ := h.thread.durable.review report found
      rcases List.mem_append.mp known with pending | clean
      · unfold pendingReview at pending
        split at pending
        · exact absurd recorded (other turn (Option.mem_toList.mp pending) report found)
        · cases pending
      · exact ⟨turn,clean,recorded⟩
  · rcases quiet with failing | ⟨cached,turn⟩
    · exact .inl failing
    · exact .inr ⟨(rollbackDetachedReview_cached s.thread).trans cached,turn⟩

theorem Core.settled {t : StageLoop} (h : s.Core) (vouched : Vouched s.clean s.thread.load.review)
    (quiet : t.Quiet) (clean : t.clean = s.clean) (loaded : t.thread.load = s.thread.load)
    (previous : t.previous = s.previous) (latest : t.latest = s.latest)
    (written : t.written = s.written) : t.Core := by
  refine ⟨⟨⟨?_,?_⟩,fun state hit => ?_⟩,fun running hit => ?_,?_,?_⟩
  · rw [loaded]
    exact vouched.mono (clean ▸ t.clean_trusted)
  · rw [loaded,clean]
    exact h.thread.durable.recovery
  · cases quiet.1.symm.trans hit
  · cases quiet.2.symm.trans hit
  · rw [previous,written]
    exact h.previous
  · rw [latest,written]
    exact h.latest

theorem Core.acknowledge (h : s.Core) {worktree : ReviewWorktree}
    (vouched : Vouched s.clean s.thread.load.review) (quiet : resumption = .fail ∨ s.Quiet)
    (acknowledged : s.worktree.acknowledge = some worktree) :
    ({ s with worktree := worktree }.resume resumption).Vetted := by
  have removed := ReviewWorktree.acknowledge_snapshot acknowledged
  cases resumption with
  | fail =>
    have quiet : (StageLoop.abort { s with worktree := worktree }).Quiet := ⟨rfl,rfl⟩
    exact ⟨h.settled vouched quiet rfl rfl rfl rfl rfl,quiet⟩
  | enter =>
    have quiet : s.Quiet := quiet.resolve_left nofun
    exact ⟨h.settled vouched quiet rfl rfl rfl rfl rfl,removed,quiet.2⟩
  | stop =>
    have quiet : s.Quiet := quiet.resolve_left nofun
    exact ⟨h.settled vouched quiet rfl rfl rfl rfl rfl,quiet⟩

theorem Core.await (h : s.Core) {turn : TurnRef} (guarded : s.Guarded plan (some turn)) :
    Vetted (match s.checkpointOf .awaitingTurn plan turn with
      | .error _ => s.turnError plan
      | .ok checkpoint => { s.write checkpoint with point := .wait plan turn }) := by
  split
  · exact h.turnError plan
  · next checkpoint _ => exact ⟨(h.write checkpoint).goto _,guarded⟩

theorem Core.record (h : s.Core) {turn : TurnRef} (guarded : s.Guarded plan (some turn))
    (idle : s.turn = none) :
    Vetted (match s.checkpointOf .turnCompleted plan turn with
      | .error _ => s.turnError plan
      | .ok checkpoint => { s.write checkpoint with
          point := if plan.role = .review then .compare (some checkpoint)
            else .evaluate checkpoint false }) := by
  split
  · exact h.turnError plan
  · next checkpoint _ =>
      refine ⟨(h.write checkpoint).goto _,?_⟩
      by_cases role : plan.role = .review
      · simp only [role,if_true]
        intro compared hit
        cases hit
        exact ⟨List.mem_cons_self,idle⟩
      · simp only [role,if_false]
        exact ⟨⟨guarded.2 role,idle⟩,List.mem_cons_self⟩

theorem Vetted.advance (h : s.Vetted) (keeps : s.KeepsRecovery s.point) :
    (s.advance config).Vetted := by
  have core := h.1
  have at_point := h.2
  unfold StageLoop.advance
  generalize s.point = here at at_point keeps ⊢
  cases here with
  | idle => exact h
  | recover =>
    dsimp only
    refine ⟨core.compare.goto _,?_⟩
    cases changed : s.compareWorktree.1 with
    | true => exact .inr at_point
    | false => exact ⟨compareWorktree_snapshot changed,at_point.2⟩
  | enter => exact core.enter at_point
  | evaluate checkpoint mayRerun => exact core.evaluate at_point.1 at_point.2 keeps
  | rollback next =>
    cases next with
    | run plan => exact core.rollback.follow (.run plan) at_point
    | complete checkpoint => exact at_point.elim
    | fail => exact core.rollback.follow .fail trivial
  | commit next =>
    cases next with
    | run plan => exact core.commit.follow (.run plan) at_point
    | complete checkpoint =>
      obtain ⟨unguarded,phase,approves⟩ := at_point
      refine core.commit.follow (.complete checkpoint) ⟨unguarded,phase,fun op => ?_⟩
      obtain ⟨report,found,rest⟩ := approves op
      exact ⟨report,(commitDetachedReview_review s.thread).trans found,rest⟩
    | fail => exact core.commit.follow .fail trivial
  | run plan =>
    dsimp only
    split
    · next role => exact ⟨core.rollback.goto _,at_point,role⟩
    · next role =>
        exact ⟨core.goto _,⟨fun review => absurd review role,fun _ => at_point.1⟩,at_point.2⟩
  | capture plan => exact core.captureSnapshot at_point.1 at_point.2
  | prepare plan =>
    obtain ⟨idle,unowned,present,role⟩ := at_point
    have settled : s.trusted ⊆ s.clean := by simp [StageLoop.trusted,pendingReview,unowned]
    exact ⟨⟨core.thread.prepare settled s.clean_trusted,core.turn,core.previous,
      core.latest⟩,⟨fun _ => ⟨present,unowned⟩,fun text => absurd role text⟩,idle⟩
  | start plan => exact h
  | await plan turn => exact core.await at_point
  | wait plan turn =>
    dsimp only
    split
    · exact ⟨⟨core.thread,by simp,core.previous,core.latest⟩,at_point,rfl⟩
    · exact h
  | record plan turn => exact core.record at_point.1 at_point.2
  | compare outcome => exact core.compareTurn at_point
  | mutated resumption => exact core.mutated at_point keeps
  | acknowledge resumption =>
    dsimp only
    split
    · cases resumption with
      | enter | fail => exact core.abort
      | stop => exact ⟨core.goto _,at_point.2.resolve_left (by simp)⟩
    · next worktree acknowledged =>
        exact core.acknowledge at_point.1 at_point.2 acknowledged
  | complete checkpoint =>
    exact ⟨⟨core.thread.forget,by rintro _ ⟨⟩,⟨List.mem_cons_self,at_point.2.1⟩,by rintro _ ⟨⟩⟩,
      rfl,rfl⟩
  | cleanup =>
    dsimp only
    refine ⟨core.compare.goto _,?_⟩
    cases changed : s.compareWorktree.1 with
    | true => exact .inr at_point
    | false => exact at_point
  | cleanupRollback =>
    exact ⟨core.rollback.goto _,(rollbackDetachedReview_cached s.thread).trans at_point.1,
      at_point.2⟩

end StageLoop

end Runtime
