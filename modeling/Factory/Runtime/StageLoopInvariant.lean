import Factory.Runtime.ReviewAccounting

namespace Runtime

open Extension Result

theorem validateCheckpointState_review {order : List String → List String} {state : FactoryState}
    {checkpoint : StageCheckpoint} {u : Unit}
    (h : validateCheckpointState order state checkpoint = .ok u)
    (role : checkpoint.turnRole = .review) :
    ∃ report, state.review = some report ∧ recordedBy checkpoint.turn report := by
  simp only [validateCheckpointState,role,validateReviewTurn,bind_ok,ensure_ok,okOr_ok] at h
  obtain ⟨_,_,_,_,report,found,_,threadId,turnId⟩ := h
  exact ⟨report,found,threadId,turnId⟩

theorem ReviewWorktree.recover_cases (worktree : ReviewWorktree) :
    (worktree.recover.1 = false ∧ worktree.recover.2.snapshot = none) ∨
      (worktree.recover.1 = true ∧ worktree.snapshot.isSome = true ∧
        worktree.recover.2.snapshot = some true) := by
  unfold recover
  cases found : worktree.snapshot with
  | none => exact .inl ⟨rfl,found⟩
  | some detected =>
    dsimp only
    split
    · exact .inr ⟨rfl,rfl,rfl⟩
    · exact .inl ⟨rfl,rfl⟩

theorem ReviewWorktree.acknowledge_snapshot {worktree acknowledged : ReviewWorktree}
    (h : worktree.acknowledge = some acknowledged) : acknowledged.snapshot = none := by
  unfold acknowledge at h
  split at h
  · cases h
    rfl
  · cases h

namespace StageLoop

variable {s : StageLoop}

def trusted (s : StageLoop) : List TurnRef := s.pendingReview ++ s.clean

structure Core (s : StageLoop) : Prop where
  thread : AccountedThread s.trusted s.clean s.thread
  turn : ∀ running ∈ s.turn, running.plan.role = .review → running.turn ∈ s.trusted
  previous : s.previous ∈ s.written ∧ s.previous.phase = .completed
  latest : ∀ checkpoint ∈ s.latest, checkpoint ∈ s.written

def Quiet (s : StageLoop) : Prop := s.thread.cached = none ∧ s.turn = none

def Unguarded (s : StageLoop) : Prop := s.worktree.snapshot = none ∧ s.turn = none

def Guarded (s : StageLoop) (plan : TurnPlan) (reviewer : Option TurnRef) : Prop :=
  (plan.role = .review → s.worktree.snapshot.isSome ∧ s.reviewer = reviewer) ∧
    (plan.role ≠ .review → s.worktree.snapshot = none)

def Ready (s : StageLoop) : Next → Prop
  | .run _ => s.Unguarded
  | .complete checkpoint =>
    s.Unguarded ∧ checkpoint.phase = .completed ∧
      (s.operation = .remediate → s.ApprovedByReview)
  | .fail => True

def Repeats (s : StageLoop) : Next → Prop
  | .run _ => s.Unguarded
  | .complete _ => False
  | .fail => True

def At (s : StageLoop) : Point → Prop
  | .idle | .recover | .cleanup | .cleanupRollback => s.Quiet
  | .enter | .run _ => s.Unguarded
  | .capture plan => s.Unguarded ∧ plan.role = .review
  | .evaluate checkpoint _ => s.Unguarded ∧ checkpoint ∈ s.written
  | .rollback next => s.Repeats next
  | .commit next => s.Ready next
  | .prepare plan =>
    s.turn = none ∧ s.reviewer = none ∧ s.worktree.snapshot.isSome ∧ plan.role = .review
  | .start plan => s.Guarded plan none ∧ s.turn = none
  | .await plan turn | .wait plan turn => s.Guarded plan (some turn)
  | .record plan turn => s.Guarded plan (some turn) ∧ s.turn = none
  | .compare outcome => ∀ checkpoint ∈ outcome, checkpoint ∈ s.written ∧ s.turn = none
  | .mutated resumption => resumption = .fail ∨ s.Quiet
  | .acknowledge resumption =>
    Vouched s.clean s.thread.load.review ∧ (resumption = .fail ∨ s.Quiet)
  | .complete checkpoint => s.Ready (.complete checkpoint)

structure Vetted (s : StageLoop) : Prop where
  core : s.Core
  point : s.At s.point

theorem clean_trusted (s : StageLoop) : s.clean ⊆ s.trusted := List.subset_append_right _ _

theorem Unguarded.trusted (h : s.Unguarded) : s.trusted = s.clean := by
  simp [StageLoop.trusted,pendingReview,h.1]

theorem compareWorktree_trusted (s : StageLoop) : s.compareWorktree.2.trusted = s.trusted := by
  simp only [StageLoop.trusted,compareWorktree,pendingReview]
  rcases s.worktree.recover_cases with ⟨same,removed⟩ | ⟨changed,present,marked⟩
  · simp [same,removed]
  · simp [changed,present,marked]

theorem compareWorktree_clean (s : StageLoop) : s.clean ⊆ s.compareWorktree.2.clean := by
  simp only [compareWorktree]
  split
  · exact fun _ hit => hit
  · exact List.subset_append_right _ _

theorem compareWorktree_snapshot (h : s.compareWorktree.1 = false) :
    s.compareWorktree.2.worktree.snapshot = none := by
  rcases s.worktree.recover_cases with ⟨_,removed⟩ | ⟨changed,_,_⟩
  · exact removed
  · cases changed.symm.trans h

namespace Core

theorem write (h : s.Core) (checkpoint : StageCheckpoint) : (s.write checkpoint).Core := by
  refine ⟨h.thread,h.turn,⟨List.mem_cons_of_mem _ h.previous.1,h.previous.2⟩,?_⟩
  intro latest hit
  cases hit
  exact List.mem_cons_self

section CoreStates

variable (h : s.Core)

include h

theorem goto (point : Point) : Core { s with point := point } :=
  ⟨h.thread,h.turn,h.previous,h.latest⟩

theorem compare : s.compareWorktree.2.Core := by
  have same := compareWorktree_trusted s
  refine ⟨?_,fun running hit role => ?_,h.previous,h.latest⟩
  · rw [same]
    exact h.thread.mono (fun _ hit => hit) (compareWorktree_clean s)
  · rw [same]
    exact h.turn running hit role

theorem shutdown : s.shutdown.Core :=
  ⟨h.thread.forget,nofun,h.previous,h.latest⟩

theorem abort : s.abort.Vetted := ⟨h.shutdown.goto .cleanup,rfl,rfl⟩

theorem stop : Vetted { s.shutdown with point := .idle } :=
  ⟨h.shutdown.goto .idle,rfl,rfl⟩

theorem rollback : Core { s with thread := rollbackDetachedReview s.thread } :=
  ⟨h.thread.rollback s.clean_trusted,h.turn,h.previous,h.latest⟩

theorem commit : Core { s with thread := commitDetachedReview s.thread } :=
  ⟨h.thread.commit,h.turn,h.previous,h.latest⟩

theorem follow (next : Next) (ready : s.Ready next) : (s.follow next).Vetted := by
  cases next with
  | run | complete => exact ⟨h.goto _,ready⟩
  | fail => exact h.abort

theorem retract {role : StageTurnRole} {next : Next} (repeats : s.Repeats next) :
    (s.retract role next).Vetted := by
  unfold StageLoop.retract
  split
  · exact ⟨h.goto _,repeats⟩
  · cases next with
    | run plan => exact ⟨h.goto _,repeats⟩
    | complete checkpoint => exact repeats.elim
    | fail => exact h.abort

theorem turnError (plan : TurnPlan) : (s.turnError plan).Vetted := by
  unfold StageLoop.turnError
  split
  · exact ⟨h.goto _,fun _ hit => by cases hit⟩
  · exact h.abort

theorem approvedByReview (unguarded : s.Unguarded) {report : FactoryReviewReport} {turn : TurnRef}
    (found : s.thread.load.review = some report) (approve : report.verdict = .approve)
    (recorded : recordedBy turn report) (validated : turn ∈ s.validated)
    (observed : s.Observed turn) : s.ApprovedByReview := by
  obtain ⟨recorder,known,by_recorder⟩ := h.thread.durable.review report found
  rw [unguarded.trusted] at known
  cases recordedBy_unique recorded by_recorder
  exact ⟨report,found,approve,turn,known,recorded,validated,observed⟩

end CoreStates

end Core

end StageLoop

end Runtime
