import Factory.Workspace.ReviewSnapshot

namespace Workspace

open Git Worktree

variable {Path Content Commit Branch : Type}

def indexTree (repository : Repository Path Content Commit)
    (w : Worktree Path Content Commit Branch) : Option (FileMap Path Content) :=
  w.index.or (w.head.map repository.tree)

def headTree (repository : Repository Path Content Commit)
    (w : Worktree Path Content Commit Branch) : FileMap Path Content :=
  (w.head.map repository.tree).getD .empty

def stagedTree (repository : Repository Path Content Commit)
    (w : Worktree Path Content Commit Branch) : FileMap Path Content :=
  (indexTree repository w).getD .empty

theorem headTree_eq {repository : Repository Path Content Commit}
    {w : Worktree Path Content Commit Branch} {head : Commit} (born : w.head = some head) :
    headTree repository w = repository.tree head := by
  rw [headTree,born]
  rfl

theorem stagedTree_eq {repository : Repository Path Content Commit}
    {w : Worktree Path Content Commit Branch} {index : FileMap Path Content}
    (tracks : indexTree repository w = some index) : stagedTree repository w = index := by
  rw [stagedTree,tracks]
  rfl

def guarded (repository : Repository Path Content Commit)
    (w : Worktree Path Content Commit Branch) : Option (FileMap Path Content) :=
  (indexTree repository w).map (fun index => addAll repository.rules index w.files)

def Differs (repository : Repository Path Content Commit)
    (before after : Worktree Path Content Commit Branch) : Prop :=
  after.head ≠ before.head ∨ after.branch ≠ before.branch ∨ after.index ≠ before.index ∨
    guarded repository after ≠ guarded repository before

structure RestoredTo (repository : Repository Path Content Commit)
    (before after : Worktree Path Content Commit Branch) : Prop where
  head : after.head = before.head
  branch : after.branch = before.branch
  index : after.index = before.index
  guarded : guarded repository after = guarded repository before
  leftovers : ∀ p, before.files p = none → after.files p ≠ none →
    repository.rules.ignored before.files p = true

section

variable {checkouts : Checkouts Path Content Commit} {d : Disk Path Content Commit Branch}
  {metadata : WorkspaceSnapshotMetadata Path Content Commit Branch}

theorem run_onDir
    (f : SnapshotDir Path Content Commit Branch → SnapshotDir Path Content Commit Branch) :
    (onDir f).run d = ({ d with dir := f d.dir }, .ok ()) := rfl

theorem run_removeEntries (order : List Entry) :
    (removeEntries order).run d =
      ({ d with dir := order.foldl (fun dir entry => dir.removeEntry entry) d.dir }, .ok ()) := by
  induction order generalizing d with
  | nil => rfl
  | cons entry rest ih =>
    rw [removeEntries,Atomic.run_bind_ok (run_onDir _),ih]
    rfl

theorem run_removeDirAll (order : List Entry) :
    (removeDirAll order).run d = ({ d with dir := SnapshotDir.absent }, .ok ()) := by
  rw [removeDirAll,Atomic.run_bind_ok (run_removeEntries _)]
  rfl

theorem run_writeMetadata :
    (writeReviewSnapshotMetadata metadata).run d =
      ({ d with dir := { d.dir with metadata := some metadata, candidate := none } }, .ok ()) :=
  rfl

theorem run_loadReviewSnapshot : (loadReviewSnapshot).run d = (d, .ok d.dir.metadata) := rfl

theorem run_markMutation :
    ∃ dir, (markMutation metadata).run d = ({ d with dir := dir }, .ok ()) ∧
      dir.metadata = (if metadata.mutationDetected then d.dir.metadata
        else some { metadata with mutationDetected := true }) ∧
      dir.baselineIndex = d.dir.baselineIndex := by
  unfold markMutation
  split
  · exact ⟨d.dir,rfl,rfl,rfl⟩
  · exact ⟨_,run_writeMetadata,rfl,rfl⟩

variable {error : WorkspaceError} {d' : Disk Path Content Commit Branch}
  {index : FileMap Path Content}

theorem symbolicRef_ok {branch : Branch} (h : symbolicRef.run d = (d', .ok branch)) :
    d' = d ∧ d.worktree.branch = some branch := by
  rw [symbolicRef,Atomic.run_bind_ok (Atomic.run_look _)] at h
  exact Atomic.require_ok h

theorem revParseHead_ok {head : Commit} (h : revParseHead.run d = (d', .ok head)) :
    d' = d ∧ d.worktree.head = some head := by
  rw [revParseHead,Atomic.run_bind_ok (Atomic.run_look _)] at h
  exact Atomic.require_ok h

theorem loadIndex_ok (h : (loadIndex checkouts).run d = (d', .ok index)) :
    d' = d ∧ indexTree checkouts.repository d.worktree = some index := by
  rw [loadIndex,Atomic.run_bind_ok (Atomic.run_look _)] at h
  cases present : d.worktree.index with
  | some found =>
    rw [present] at h
    cases h
    exact ⟨rfl,by rw [indexTree,present]; rfl⟩
  | none =>
    rw [present] at h
    dsimp only at h
    obtain ⟨head,m,born,rest⟩ := Atomic.run_bind_eq_ok h
    obtain ⟨rfl,commit⟩ := Atomic.require_ok born
    cases rest
    exact ⟨rfl,by rw [indexTree,present,commit]; rfl⟩

theorem run_loadIndex (h : indexTree checkouts.repository d.worktree = some index) :
    (loadIndex checkouts).run d = (d, .ok index) := by
  rw [loadIndex,Atomic.run_bind_ok (Atomic.run_look _)]
  unfold indexTree at h
  cases present : d.worktree.index with
  | some found =>
    rw [present] at h
    cases h
    rfl
  | none =>
    rw [present,Option.none_or,Option.map_eq_some_iff] at h
    obtain ⟨head,born,rfl⟩ := h
    simp only [born]
    rfl

theorem run_loadIndex_error (h : indexTree checkouts.repository d.worktree = none) :
    (loadIndex checkouts).run d = (d, .error (.git "read-tree HEAD")) := by
  rw [loadIndex,Atomic.run_bind_ok (Atomic.run_look _)]
  simp only [indexTree,Option.or_eq_none_iff,Option.map_eq_none_iff] at h
  rw [h.1]
  simp only [h.2]
  rfl

theorem run_compareWorktree (h : indexTree checkouts.repository d.worktree = some index) :
    (compareWorktree checkouts).run d =
      ({ d with
          dir := { d.dir with
            comparisonIndex := some (addAll checkouts.repository.rules index d.worktree.files) } },
        .ok (index, addAll checkouts.repository.rules index d.worktree.files)) := by
  rw [compareWorktree,Atomic.run_bind_ok (run_loadIndex h)]
  rfl

theorem run_compareWorktree_error (h : indexTree checkouts.repository d.worktree = none) :
    (compareWorktree checkouts).run d = (d, .error (.git "read-tree HEAD")) := by
  rw [compareWorktree,Atomic.run_bind_error (run_loadIndex_error h)]

end

variable [DecidableEq Path]

def restoredFiles (repository : Repository Path Content Commit) (head : Commit)
    (tree : FileMap Path Content) (w : Worktree Path Content Commit Branch) :
    FileMap Path Content :=
  let files := materialize (repository.tree head) w.tracked w.files
  tree.overlay (w.files.restrict (fun p =>
    (repository.tree head p).isNone && (w.tracked p).isNone && repository.rules.ignored files p))

variable {checkouts : Checkouts Path Content Commit} {d : Disk Path Content Commit Branch}
  {metadata : WorkspaceSnapshotMetadata Path Content Commit Branch}

theorem restored_files (repository : Repository Path Content Commit) (branch : Branch)
    (head : Commit) (tree : FileMap Path Content) (w : Worktree Path Content Commit Branch) :
    (readTree tree (clean repository (resetHard repository head
      (checkout repository branch head w)))).files =
      restoredFiles repository head tree w := by
  have settled : (resetHard repository head
      (checkout repository branch head w)).files =
      materialize (repository.tree head) w.tracked w.files := materialize_again
  refine FileMap.ext ?_
  intro p
  simp only [readTree,clean,settled,restoredFiles,materialize_apply,
    FileMap.overlay_apply,FileMap.restrict_apply]
  simp only [resetHard,tracked,Option.getD_some]
  cases tree p with
  | some content => rfl
  | none =>
    rcases Option.eq_none_or_eq_some (repository.tree head p) with untracked | ⟨_,tracked⟩
    · rcases Option.eq_none_or_eq_some (w.index.getD .empty p) with unstaged | ⟨_,staged⟩
      · simp [untracked,unstaged]
      · simp [untracked,staged]
    · simp [tracked]

theorem run_restoreWorktree (baselineIndex : Option (FileMap Path Content)) :
    (restoreWorktree checkouts metadata baselineIndex).run d =
      ({ d with worktree := ⟨some metadata.head, some metadata.branchName,
          if metadata.hadIndex then baselineIndex else none,
          restoredFiles checkouts.repository metadata.head metadata.tree d.worktree⟩ },
        .ok ()) := by
  have files := restored_files checkouts.repository metadata.branchName metadata.head metadata.tree
    d.worktree
  rw [← files]
  rfl

section Restore

variable [DecidableEq Content] [DecidableEq Commit] [DecidableEq Branch]
  {workspace : WorkspaceRecord Commit Branch} {order : List Entry}

structure Matches (workspace : WorkspaceRecord Commit Branch)
    (metadata : WorkspaceSnapshotMetadata Path Content Commit Branch)
    (dir : SnapshotDir Path Content Commit Branch) : Prop where
  job : metadata.jobId = workspace.jobId
  root : metadata.root = workspace.root
  branch : metadata.branchName = workspace.branchName
  baseline : metadata.hadIndex = true → dir.baselineIndex ≠ none

theorem run_restore_matched (matched : Matches workspace metadata d.dir) :
    (restoreReviewSnapshotMetadata checkouts workspace order metadata).run d =
      (do
        let (currentIndexTree, currentTree) ← compareWorktree checkouts
        if reviewChanged checkouts metadata d.dir.baselineIndex d.worktree currentIndexTree
            currentTree then
          markMutation metadata
          restoreWorktree checkouts metadata d.dir.baselineIndex
          pure true
        else
          removeDirAll order
          pure false : Action Path Content Commit Branch Bool).run d := by
  rw [restoreReviewSnapshotMetadata,if_neg,Atomic.run_bind_ok (Atomic.run_look _),if_neg]
  · rfl
  · rintro ⟨had,missing⟩
    exact matched.baseline had missing
  · simp [matched.job,matched.root,matched.branch]

theorem run_restore_changed (matched : Matches workspace metadata d.dir)
    {index : FileMap Path Content} (h : indexTree checkouts.repository d.worktree = some index)
    (changed : reviewChanged checkouts metadata d.dir.baselineIndex d.worktree index
      (addAll checkouts.repository.rules index d.worktree.files) = true) :
    ∃ dir, (restoreReviewSnapshotMetadata checkouts workspace order metadata).run d =
      (⟨dir, ⟨some metadata.head, some metadata.branchName,
        if metadata.hadIndex then d.dir.baselineIndex else none,
        restoredFiles checkouts.repository metadata.head metadata.tree d.worktree⟩⟩, .ok true) ∧
      dir.metadata = (if metadata.mutationDetected then d.dir.metadata
        else some { metadata with mutationDetected := true }) := by
  rw [run_restore_matched matched,Atomic.run_bind_ok (run_compareWorktree h)]
  dsimp only
  rw [if_pos changed]
  obtain ⟨dir,marked,recorded,_⟩ := @run_markMutation _ _ _ _
    { d with
      dir := { d.dir with
        comparisonIndex := some (addAll checkouts.repository.rules index d.worktree.files) } }
    metadata
  rw [Atomic.run_bind_ok marked,Atomic.run_bind_ok (run_restoreWorktree _)]
  exact ⟨dir,rfl,recorded⟩

theorem run_restore_unchanged (matched : Matches workspace metadata d.dir)
    {index : FileMap Path Content} (h : indexTree checkouts.repository d.worktree = some index)
    (unchanged : reviewChanged checkouts metadata d.dir.baselineIndex d.worktree index
      (addAll checkouts.repository.rules index d.worktree.files) = false) :
    (restoreReviewSnapshotMetadata checkouts workspace order metadata).run d =
      ({ d with dir := SnapshotDir.absent }, .ok false) := by
  rw [run_restore_matched matched,Atomic.run_bind_ok (run_compareWorktree h)]
  dsimp only
  rw [if_neg (by rw [unchanged]; decide),Atomic.run_bind_ok (run_removeDirAll order)]
  rfl

theorem run_restore_unborn (matched : Matches workspace metadata d.dir)
    (h : indexTree checkouts.repository d.worktree = none) :
    (restoreReviewSnapshotMetadata checkouts workspace order metadata).run d =
      (d, .error (.git "read-tree HEAD")) := by
  rw [run_restore_matched matched,Atomic.run_bind_error (run_compareWorktree_error h)]

structure Captured (checkouts : Checkouts Path Content Commit)
    (workspace : WorkspaceRecord Commit Branch) (snapshotId : String)
    (before : Worktree Path Content Commit Branch) (head : Commit) (branch : Branch)
    (index : FileMap Path Content) (dir : SnapshotDir Path Content Commit Branch) : Prop where
  born : before.head = some head
  attached : before.branch = some branch
  tracks : indexTree checkouts.repository before = some index
  metadata : dir.metadata = some ⟨snapshotId, workspace.jobId, workspace.root, branch, head,
    addAll checkouts.repository.rules index before.files, some index, before.index.isSome, false⟩
  baseline : dir.baselineIndex = before.index

variable {d' : Disk Path Content Commit Branch}

theorem restore_kept
    (h : (restoreReviewSnapshotMetadata checkouts workspace order metadata).run d =
      (d', .ok false)) : d'.worktree = d.worktree := by
  by_cases matched : Matches workspace metadata d.dir
  · cases index : indexTree checkouts.repository d.worktree with
    | none =>
      rw [run_restore_unborn matched index] at h
      cases h
    | some tree =>
      cases changed : reviewChanged checkouts metadata d.dir.baselineIndex d.worktree tree
          (addAll checkouts.repository.rules tree d.worktree.files) with
      | true =>
        obtain ⟨dir,run,_⟩ := @run_restore_changed _ _ _ _ _ checkouts d metadata _ _ _ workspace
          order matched tree index changed
        rw [run] at h
        cases h
      | false =>
        rw [run_restore_unchanged matched index changed] at h
        cases h
        rfl
  · rw [restoreReviewSnapshotMetadata] at h
    split at h
    · cases h
    · next same =>
        rw [Atomic.run_bind_ok (Atomic.run_look _)] at h
        split at h
        · cases h
        · next present =>
            refine absurd ?_ matched
            simp only [ne_eq,not_or,not_not] at same
            refine ⟨same.1,same.2.1,same.2.2,?_⟩
            intro had missing
            exact present ⟨had,missing⟩

theorem run_recover_loaded (loaded : d.dir.metadata = some metadata) :
    (recoverReviewSnapshot checkouts workspace order).run d =
      (restoreReviewSnapshotMetadata checkouts workspace order metadata).run d := by
  rw [recoverReviewSnapshot,Atomic.run_bind_ok run_loadReviewSnapshot,loaded]

theorem run_restore_loaded {snapshot : WorkspaceSnapshot} (loaded : d.dir.metadata = some metadata)
    (job : snapshot.jobId = workspace.jobId) (id : metadata.snapshotId = snapshot.snapshotId) :
    (restoreReviewSnapshot checkouts workspace order snapshot).run d =
      (restoreReviewSnapshotMetadata checkouts workspace order metadata).run d := by
  rw [restoreReviewSnapshot,if_neg (not_not.mpr job),Atomic.run_bind_ok run_loadReviewSnapshot,
    loaded,Atomic.run_bind_ok (Atomic.run_require_some _ _),if_neg (not_not.mpr id)]

theorem recover_kept
    (h : (recoverReviewSnapshot checkouts workspace order).run d = (d', .ok false)) :
    d'.worktree = d.worktree := by
  cases found : d.dir.metadata with
  | none =>
    rw [recoverReviewSnapshot,Atomic.run_bind_ok run_loadReviewSnapshot,found] at h
    cases h
    rfl
  | some metadata =>
    rw [run_recover_loaded found] at h
    exact restore_kept h

end Restore

end Workspace
