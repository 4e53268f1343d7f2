import Factory.Runtime.ApprovalProvenance
import Factory.Runtime.ReviewAcknowledgement
import Factory.Workspace.SnapshotSafety

namespace Runtime

open Extension Git Workspace StageLoop SnapshotRun AuditedLoop

variable {Path Content Commit Branch : Type} [DecidableEq Path] [DecidableEq Content]
  [DecidableEq Commit] [DecidableEq Branch] {checkouts : Checkouts Path Content Commit}
  {workspace : WorkspaceRecord Commit Branch}

theorem review_snapshot_crash_safe (worktree : Worktree Path Content Commit Branch)
    (calls : List (SnapshotStep Path Content Commit Branch))
    (careful : Machine.Along (step checkouts workspace) (SnapshotRun.Careful workspace)
      (start worktree) calls)
    (config : ExecutorConfig) (previous : StageCheckpoint) (state : FactoryState)
    (steps : List LoopStep)
    (current : Machine.Along (AuditedLoop.step config) AuditedLoop.Current
      (start previous state) steps) :
    (Machine.run (step checkouts workspace) (start worktree)
        calls).Recovers checkouts workspace ∧
      Machine.Along (AuditedLoop.step config) AuditedLoop.Acknowledged
        (start previous state) steps :=
  ⟨recovers_along worktree calls careful,
    acknowledged_along config previous state steps current⟩

def guardedReview : List (SnapshotStep Nat Nat Nat Nat) :=
  [.call (.capture "snapshot") [] (some 3), .call (.capture "snapshot") [] none,
    .worktree hiddenFile, .call .recover [] (some 6), .call .recover [] none,
    .call .acknowledge [.candidate] (some 1)]

def mutatingReview : List LoopStep :=
  [.attempt, .advance, .advance, .advance, .advance, .advance, .started ⟨"review-1", "turn-1"⟩,
    .advance, .prompt, reviewCall ⟨"review-1", "turn-1"⟩ "execute-turn" ⟨.approve, "passes", []⟩,
    .mutate, .finish, .advance, .advance, .advance, .advance]

theorem review_snapshot_crash_safe_guarded :
    (Machine.run (step editedIgnore editedWorkspace)
        (start editedWorktree) guardedReview).Recovers editedIgnore editedWorkspace ∧
      Machine.Along (AuditedLoop.step threeCycles) AuditedLoop.Acknowledged
        (start executedCheckpoint executedState) (mutatingReview ++ [.advance]) := by
  have careful : Machine.Along (step editedIgnore editedWorkspace)
      (SnapshotRun.Careful editedWorkspace) (start editedWorktree) guardedReview := by
    decide +kernel
  exact review_snapshot_crash_safe editedWorktree guardedReview careful threeCycles
    executedCheckpoint executedState (mutatingReview ++ [.advance]) (by decide)

def staleReview : List LoopStep :=
  rejectedReview ++ remediationTurn ++
    [.advance, .advance, .advance, .advance, .started ⟨"review-2", "turn-3"⟩, .advance,
      approvingCall, .mutate, .finish, .advance, .advance, .advance, .advance]

theorem review_snapshot_torn :
    ¬ (Machine.run (step editedIgnore editedWorkspace)
        (start editedWorktree)
        (guardedReview ++ [.call .acknowledge [.baselineIndex] (some 1)])).Recovers
          editedIgnore editedWorkspace ∧
      ¬ (Machine.run (step editedIgnore editedWorkspace)
        (start editedWorktree)
        (guardedReview ++ [.call .acknowledge [.metadata] (some 1)])).Recovers
          editedIgnore editedWorkspace ∧
      ¬ (Machine.run (step editedIgnore editedWorkspace)
        (start { editedWorktree with branch := some 1 })
        [.call (.capture "snapshot") [] none]).Recovers editedIgnore editedWorkspace ∧
      ¬ Machine.Along (AuditedLoop.step threeCycles) AuditedLoop.Acknowledged
        (start executedCheckpoint executedState) (staleReview ++ [.advance]) := by
  refine ⟨fun recovers => ?_,fun recovers => ?_,fun recovers => ?_,by decide⟩
  · obtain ⟨after,changed,ran,_⟩ := recovers []
    cases ran
  · obtain ⟨after,changed,ran,detected⟩ := recovers []
    cases ran
    cases detected rfl
  · obtain ⟨after,changed,ran,_⟩ := recovers []
    cases ran

end Runtime
