import Factory.Library.Atomic
import Factory.Library.Git

namespace Workspace

open Git

inductive WorkspaceError where
  | invalidInput (message : String)
  | workspace (message : String)
  | git (command : String)
  deriving DecidableEq

structure WorkspaceRecord (Commit Branch : Type) where
  jobId : String
  root : String
  branchName : Branch
  baseRevision : Commit
  deriving DecidableEq

structure Checkouts (Path Content Commit : Type) where
  repository : Repository Path Content Commit
  artifacts : Path → Bool

structure WorkspaceSnapshotMetadata (Path Content Commit Branch : Type) where
  snapshotId : String
  jobId : String
  root : String
  branchName : Branch
  head : Commit
  tree : FileMap Path Content
  indexTree : Option (FileMap Path Content)
  hadIndex : Bool
  mutationDetected : Bool
  deriving DecidableEq

structure WorkspaceSnapshot where
  jobId : String
  snapshotId : String
  deriving DecidableEq

inductive Entry where
  | metadata
  | candidate
  | baselineIndex
  | treeIndex
  | comparisonIndex
  deriving DecidableEq

def Entry.all : List Entry := [.metadata, .candidate, .baselineIndex, .treeIndex, .comparisonIndex]

structure SnapshotDir (Path Content Commit Branch : Type) where
  present : Bool
  metadata : Option (WorkspaceSnapshotMetadata Path Content Commit Branch)
  candidate : Option (WorkspaceSnapshotMetadata Path Content Commit Branch)
  baselineIndex : Option (FileMap Path Content)
  treeIndex : Option (FileMap Path Content)
  comparisonIndex : Option (FileMap Path Content)
  deriving DecidableEq

structure Disk (Path Content Commit Branch : Type) where
  dir : SnapshotDir Path Content Commit Branch
  worktree : Worktree Path Content Commit Branch
  deriving DecidableEq

variable {Path Content Commit Branch : Type}

namespace SnapshotDir

def absent : SnapshotDir Path Content Commit Branch := ⟨false, none, none, none, none, none⟩

def created : SnapshotDir Path Content Commit Branch := { absent with present := true }

def removeEntry (entry : Entry) (dir : SnapshotDir Path Content Commit Branch) :
    SnapshotDir Path Content Commit Branch :=
  match entry with
  | .metadata => { dir with metadata := none }
  | .candidate => { dir with candidate := none }
  | .baselineIndex => { dir with baselineIndex := none }
  | .treeIndex => { dir with treeIndex := none }
  | .comparisonIndex => { dir with comparisonIndex := none }

end SnapshotDir

abbrev Action (Path Content Commit Branch α : Type) :=
  Atomic (Disk Path Content Commit Branch) WorkspaceError α

def onDir (f : SnapshotDir Path Content Commit Branch → SnapshotDir Path Content Commit Branch) :
    Action Path Content Commit Branch Unit :=
  Atomic.effect (fun d => { d with dir := f d.dir })

def onWorktree (f : Worktree Path Content Commit Branch → Worktree Path Content Commit Branch) :
    Action Path Content Commit Branch Unit :=
  Atomic.effect (fun d => { d with worktree := f d.worktree })

def removeEntries : List Entry → Action Path Content Commit Branch Unit
  | [] => pure ()
  | entry :: rest => do
      onDir (SnapshotDir.removeEntry entry)
      removeEntries rest

def removeDirAll (order : List Entry) : Action Path Content Commit Branch Unit := do
  removeEntries (order ++ Entry.all)
  onDir (fun _ => SnapshotDir.absent)

def writeReviewSnapshotMetadata
    (metadata : WorkspaceSnapshotMetadata Path Content Commit Branch) :
    Action Path Content Commit Branch Unit := do
  onDir (fun dir => { dir with candidate := some metadata })
  onDir (fun dir => { dir with metadata := dir.candidate, candidate := none })

def loadReviewSnapshot :
    Action Path Content Commit Branch
      (Option (WorkspaceSnapshotMetadata Path Content Commit Branch)) :=
  Atomic.look (fun d => d.dir.metadata)

def revParseHead : Action Path Content Commit Branch Commit := do
  let head ← Atomic.look (fun d => d.worktree.head)
  Atomic.require head (.git "rev-parse HEAD")

def symbolicRef : Action Path Content Commit Branch Branch := do
  let branch ← Atomic.look (fun d => d.worktree.branch)
  Atomic.require branch (.git "symbolic-ref --short HEAD")

def tracksArtifacts (artifacts : Path → Bool) (tree : FileMap Path Content) : Bool :=
  decide (∃ p ∈ tree.support, artifacts p = true)

section

variable [DecidableEq Path] (checkouts : Checkouts Path Content Commit)

def rejectTrackedFactoryArtifacts (baseRevision : Commit) :
    Action Path Content Commit Branch Unit := do
  let worktree ← Atomic.look (fun d => d.worktree)
  let head ← Atomic.require worktree.head (.git "ls-tree -r --name-only HEAD")
  if tracksArtifacts checkouts.artifacts worktree.tracked ∨
      tracksArtifacts checkouts.artifacts (checkouts.repository.tree head) ∨
      tracksArtifacts checkouts.artifacts (checkouts.repository.tree baseRevision) then
    Atomic.fail (.invalidInput ("repository tracks the reserved top-level `.factory` path; " ++
      "Factory owns this path for job artifacts"))
  else pure ()

def loadIndex : Action Path Content Commit Branch (FileMap Path Content) := do
  let worktree ← Atomic.look (fun d => d.worktree)
  match worktree.index with
  | some index => pure index
  | none => do
      let head ← Atomic.require worktree.head (.git "read-tree HEAD")
      pure (checkouts.repository.tree head)

def compareWorktree :
    Action Path Content Commit Branch (FileMap Path Content × FileMap Path Content) := do
  let index ← loadIndex checkouts
  onDir (fun dir => { dir with comparisonIndex := some index })
  let files ← Atomic.look (fun d => d.worktree.files)
  let tree := addAll checkouts.repository.rules index files
  onDir (fun dir => { dir with comparisonIndex := some tree })
  pure (index, tree)

def restoreIndex (baselineIndex : Option (FileMap Path Content)) :
    Action Path Content Commit Branch Unit :=
  onWorktree (fun w => { w with index := baselineIndex })

def restoreWorktree (metadata : WorkspaceSnapshotMetadata Path Content Commit Branch)
    (baselineIndex : Option (FileMap Path Content)) : Action Path Content Commit Branch Unit := do
  onWorktree (Worktree.checkout checkouts.repository metadata.branchName metadata.head)
  onWorktree (Worktree.resetHard checkouts.repository metadata.head)
  onWorktree (Worktree.clean checkouts.repository)
  onWorktree (Worktree.readTree metadata.tree)
  restoreIndex (if metadata.hadIndex then baselineIndex else none)

end

section

variable [DecidableEq Path] [DecidableEq Content] [DecidableEq Commit] [DecidableEq Branch]
  (checkouts : Checkouts Path Content Commit) (workspace : WorkspaceRecord Commit Branch)

def baselineIndexTree (metadata : WorkspaceSnapshotMetadata Path Content Commit Branch)
    (baselineIndex : Option (FileMap Path Content)) : FileMap Path Content :=
  match metadata.indexTree with
  | some tree => tree
  | none =>
    if metadata.hadIndex then baselineIndex.getD .empty
    else checkouts.repository.tree metadata.head

def reviewChanged (metadata : WorkspaceSnapshotMetadata Path Content Commit Branch)
    (baselineIndex : Option (FileMap Path Content)) (worktree : Worktree Path Content Commit Branch)
    (currentIndexTree currentTree : FileMap Path Content) : Bool :=
  metadata.mutationDetected || decide (currentTree ≠ metadata.tree ∨
    worktree.head ≠ some metadata.head ∨ worktree.branch ≠ some metadata.branchName ∨
    metadata.hadIndex ≠ worktree.index.isSome ∨
    currentIndexTree ≠ baselineIndexTree checkouts metadata baselineIndex)

def markMutation (metadata : WorkspaceSnapshotMetadata Path Content Commit Branch) :
    Action Path Content Commit Branch Unit :=
  if metadata.mutationDetected then pure ()
  else writeReviewSnapshotMetadata { metadata with mutationDetected := true }

def restoreReviewSnapshotMetadata (order : List Entry)
    (metadata : WorkspaceSnapshotMetadata Path Content Commit Branch) :
    Action Path Content Commit Branch Bool := do
  if metadata.jobId ≠ workspace.jobId ∨ metadata.root ≠ workspace.root ∨
      metadata.branchName ≠ workspace.branchName then
    Atomic.fail (.workspace ("review snapshot metadata does not match workspace " ++
      workspace.jobId))
  else
    let disk ← Atomic.look id
    if metadata.hadIndex ∧ disk.dir.baselineIndex = none then
      Atomic.fail (.workspace ("review snapshot index is missing for job " ++ workspace.jobId))
    else
      let (currentIndexTree, currentTree) ← compareWorktree checkouts
      if reviewChanged checkouts metadata disk.dir.baselineIndex disk.worktree currentIndexTree
          currentTree then
        markMutation metadata
        restoreWorktree checkouts metadata disk.dir.baselineIndex
        pure true
      else
        removeDirAll order
        pure false

def recoverReviewSnapshot (order : List Entry) : Action Path Content Commit Branch Bool := do
  let metadata ← loadReviewSnapshot
  match metadata with
  | none => pure false
  | some metadata => restoreReviewSnapshotMetadata checkouts workspace order metadata

def restoreReviewSnapshot (order : List Entry) (snapshot : WorkspaceSnapshot) :
    Action Path Content Commit Branch Bool := do
  if snapshot.jobId ≠ workspace.jobId then
    Atomic.fail (.workspace ("review snapshot belongs to job " ++ snapshot.jobId ++ ", not " ++
      workspace.jobId))
  else
    let metadata ← loadReviewSnapshot
    let metadata ← Atomic.require metadata
      (.workspace ("review snapshot for job " ++ workspace.jobId ++ " was not found"))
    if metadata.snapshotId ≠ snapshot.snapshotId then
      Atomic.fail (.workspace ("review snapshot identity changed for job " ++ workspace.jobId))
    else restoreReviewSnapshotMetadata checkouts workspace order metadata

def acknowledgeReviewMutation (order : List Entry) : Action Path Content Commit Branch Unit := do
  let metadata ← loadReviewSnapshot
  let metadata ← Atomic.require metadata
    (.workspace ("review mutation marker for job " ++ workspace.jobId ++ " was not found"))
  if metadata.jobId ≠ workspace.jobId ∨ metadata.root ≠ workspace.root ∨
      metadata.mutationDetected = false then
    Atomic.fail (.workspace ("review mutation marker does not match workspace " ++
      workspace.jobId))
  else removeDirAll order

def resetSnapshotDir (order : List Entry) : Action Path Content Commit Branch Unit := do
  let disk ← Atomic.look id
  if disk.dir.present then removeDirAll order
  else pure ()
  onDir (fun _ => SnapshotDir.created)

def copyIndexes : Action Path Content Commit Branch Unit := do
  let worktree ← Atomic.look (fun d => d.worktree)
  if worktree.index.isSome then
    onDir (fun dir => { dir with baselineIndex := worktree.index })
    onDir (fun dir => { dir with treeIndex := worktree.index })
  else
    let index ← loadIndex checkouts
    onDir (fun dir => { dir with treeIndex := some index })

def captureMetadata (snapshotId : String) :
    Action Path Content Commit Branch (WorkspaceSnapshotMetadata Path Content Commit Branch) := do
  let worktree ← Atomic.look (fun d => d.worktree)
  let index ← loadIndex checkouts
  let tree := addAll checkouts.repository.rules index worktree.files
  onDir (fun dir => { dir with treeIndex := some tree })
  let branch ← symbolicRef
  let head ← revParseHead
  pure ⟨snapshotId, workspace.jobId, workspace.root, branch, head, tree, some index,
    worktree.index.isSome, false⟩

def captureReviewSnapshot (snapshotId : String) (order : List Entry) :
    Action Path Content Commit Branch WorkspaceSnapshot := do
  let recovered ← recoverReviewSnapshot checkouts workspace order
  if recovered then
    Atomic.fail (.workspace ("review mutation recovery for job " ++ workspace.jobId ++
      " has not been acknowledged"))
  else
    rejectTrackedFactoryArtifacts checkouts workspace.baseRevision
    resetSnapshotDir order
    copyIndexes checkouts
    let metadata ← captureMetadata checkouts workspace snapshotId
    writeReviewSnapshotMetadata metadata
    pure ⟨workspace.jobId, snapshotId⟩

end

end Workspace
