import Factory.Coordinator.Domain
import Factory.Library.Patch
import Factory.Workspace.ReviewSnapshot

namespace Coordinator

def JobState.debug : JobState → String
  | .queued => "Queued"
  | .running => "Running"
  | .cancelling => "Cancelling"
  | .succeeded => "Succeeded"
  | .failed => "Failed"
  | .cancelled => "Cancelled"

end Coordinator

namespace Workspace

open Coordinator Git

structure WorkspaceResult (Path Content Commit : Type) where
  jobId : String
  repositoryId : String
  baseRevision : Commit
  patchSha256 : String
  patch : Patch Path Content
  deriving DecidableEq

variable {Path Content Commit Branch : Type}

def resultTree (checkouts : Checkouts Path Content Commit) (baseRevision : Commit)
    (files : FileMap Path Content) : FileMap Path Content :=
  addAll checkouts.repository.rules (checkouts.repository.tree baseRevision) files

def Unreserved (artifacts : Path → Bool) (tree : FileMap Path Content) : Prop :=
  ∀ p, artifacts p = true → tree p = none

section

variable {checkouts : Checkouts Path Content Commit} {head baseRevision : Commit}
  {disk disk' : Disk Path Content Commit Branch} {artifacts : Path → Bool}
  {tree files : FileMap Path Content} {p : Path}

theorem resultTree_based (tracked : checkouts.repository.tree baseRevision p ≠ none) :
    resultTree checkouts baseRevision files p = files p := by
  rw [resultTree,addAll_apply,if_pos]
  rw [Bool.or_eq_true]
  exact .inl (Option.isSome_iff_ne_none.mpr tracked)

theorem resultTree_new (untracked : checkouts.repository.tree baseRevision p = none) :
    resultTree checkouts baseRevision files p =
      if checkouts.repository.rules.ignored files p then none else files p := by
  rw [resultTree,addAll_apply,untracked]
  cases checkouts.repository.rules.ignored files p <;> rfl

theorem tracksArtifacts_false :
    tracksArtifacts artifacts tree = false ↔ Unreserved artifacts tree := by
  simp only [tracksArtifacts,decide_eq_false_iff_not,not_exists,not_and,Bool.not_eq_true,
    tree.mem_support,Unreserved]
  constructor
  · intro untracked p reserved
    by_contra present
    rw [untracked p (Option.isSome_iff_ne_none.mpr present)] at reserved
    cases reserved
  · intro unreserved p present
    by_contra reserved
    rw [unreserved p (by simpa using reserved)] at present
    cases present

theorem rejectTracked_run (born : disk.worktree.head = some head)
    (index : Unreserved checkouts.artifacts disk.worktree.tracked)
    (committed : Unreserved checkouts.artifacts (checkouts.repository.tree head))
    (base : Unreserved checkouts.artifacts (checkouts.repository.tree baseRevision)) :
    (rejectTrackedFactoryArtifacts checkouts baseRevision).run disk = (disk, .ok ()) := by
  rw [rejectTrackedFactoryArtifacts,Atomic.run_bind_ok (Atomic.run_look _),born]
  rw [Atomic.run_bind_ok (Atomic.run_require_some _ _),if_neg]
  · rfl
  · rw [tracksArtifacts_false.mpr index,tracksArtifacts_false.mpr committed,
      tracksArtifacts_false.mpr base]
    simp

theorem rejectTracked_ok {u : Unit}
    (h : (rejectTrackedFactoryArtifacts checkouts baseRevision).run disk = (disk', .ok u)) :
    disk.worktree.head ≠ none ∧
      Unreserved checkouts.artifacts (checkouts.repository.tree baseRevision) := by
  rw [rejectTrackedFactoryArtifacts,Atomic.run_bind_ok (Atomic.run_look _)] at h
  obtain ⟨head,m,found,rest⟩ := Atomic.run_bind_eq_ok h
  split at rest
  · cases rest
  · next untracked =>
      simp only [not_or,Bool.not_eq_true] at untracked
      refine ⟨?_,tracksArtifacts_false.mp untracked.2.2⟩
      intro unborn
      rw [unborn] at found
      cases found

end

variable [DecidableEq Path] [DecidableEq Content]

def resultPatch (checkouts : Checkouts Path Content Commit) (baseRevision : Commit)
    (files : FileMap Path Content) : Patch Path Content :=
  diff (fun p => !checkouts.artifacts p) (checkouts.repository.tree baseRevision)
    (resultTree checkouts baseRevision files)

def generateResultPatch (checkouts : Checkouts Path Content Commit) (baseRevision : Commit) :
    Action Path Content Commit Branch (Patch Path Content) := do
  rejectTrackedFactoryArtifacts checkouts baseRevision
  let files ← Atomic.look (fun d => d.worktree.files)
  pure (resultPatch checkouts baseRevision files)

def exportResult (checkouts : Checkouts Path Content Commit)
    (workspace : WorkspaceRecord Commit Branch) (repositoryId : String)
    (sha256 : Patch Path Content → String) (state : JobState) :
    Action Path Content Commit Branch (WorkspaceResult Path Content Commit) := do
  if state ≠ .succeeded then
    Atomic.fail (.invalidInput ("job " ++ workspace.jobId ++ " is " ++ state.debug ++
      ", not succeeded"))
  else
    rejectTrackedFactoryArtifacts checkouts workspace.baseRevision
    let patch ← generateResultPatch checkouts workspace.baseRevision
    pure ⟨workspace.jobId, repositoryId, workspace.baseRevision, sha256 patch, patch⟩

variable {checkouts : Checkouts Path Content Commit} {workspace : WorkspaceRecord Commit Branch}
  {repositoryId : String} {sha256 : Patch Path Content → String} {head : Commit}
  {disk disk' : Disk Path Content Commit Branch}

theorem exportResult_run (born : disk.worktree.head = some head)
    (index : Unreserved checkouts.artifacts disk.worktree.tracked)
    (committed : Unreserved checkouts.artifacts (checkouts.repository.tree head))
    (base : Unreserved checkouts.artifacts (checkouts.repository.tree workspace.baseRevision)) :
    (exportResult checkouts workspace repositoryId sha256 .succeeded).run disk =
      (disk, .ok ⟨workspace.jobId, repositoryId, workspace.baseRevision,
        sha256 (resultPatch checkouts workspace.baseRevision disk.worktree.files),
        resultPatch checkouts workspace.baseRevision disk.worktree.files⟩) := by
  have checked := rejectTracked_run born index committed base
  have generated : (generateResultPatch checkouts workspace.baseRevision).run disk =
      (disk, .ok (resultPatch checkouts workspace.baseRevision disk.worktree.files)) := by
    rw [generateResultPatch,Atomic.run_bind_ok checked,Atomic.run_bind_ok (Atomic.run_look _)]
    rfl
  rw [exportResult,if_neg (by simp),Atomic.run_bind_ok checked,Atomic.run_bind_ok generated]
  rfl

theorem exportResult_ok {state : JobState} {result : WorkspaceResult Path Content Commit}
    (h : (exportResult checkouts workspace repositoryId sha256 state).run disk =
      (disk', .ok result)) :
    disk.worktree.head ≠ none ∧
      Unreserved checkouts.artifacts (checkouts.repository.tree workspace.baseRevision) := by
  rw [exportResult] at h
  split at h
  · cases h
  · obtain ⟨_,m,checked,_⟩ := Atomic.run_bind_eq_ok h
    exact rejectTracked_ok checked

end Workspace
