import Factory.Workspace.ReviewRestore

namespace Workspace

open Git Atomic Option

variable {Path Content Commit Branch : Type} {checkouts : Checkouts Path Content Commit}
  {workspace : WorkspaceRecord Commit Branch} {snapshotId : String} {order : List Entry}
  {d d' : Disk Path Content Commit Branch} {before mutated : Worktree Path Content Commit Branch}
  {head : Commit} {branch : Branch} {index tree : FileMap Path Content}
  {dir : SnapshotDir Path Content Commit Branch}

variable {metadata : WorkspaceSnapshotMetadata Path Content Commit Branch} {u : Unit}
  {repository : Repository Path Content Commit}

theorem captureMetadata_ok
    (h : (captureMetadata checkouts workspace snapshotId).run d = (d', .ok metadata)) :
    ∃ head branch index, d.worktree.head = some head ∧ d.worktree.branch = some branch ∧
      indexTree checkouts.repository d.worktree = some index ∧
      metadata = ⟨snapshotId, workspace.jobId, workspace.root, branch, head,
        addAll checkouts.repository.rules index d.worktree.files, some index,
        d.worktree.index.isSome, false⟩ ∧
      d'.worktree = d.worktree ∧ d'.dir.baselineIndex = d.dir.baselineIndex := by
  rw [captureMetadata,run_bind_ok (run_look _)] at h
  obtain ⟨index,m,loaded,rest⟩ := run_bind_eq_ok h
  obtain ⟨same,tracks⟩ := loadIndex_ok loaded
  rw [same,run_bind_ok (run_onDir _)] at rest
  obtain ⟨branch,m',attached,rest⟩ := run_bind_eq_ok rest
  obtain ⟨same',onBranch⟩ := symbolicRef_ok attached
  rw [same'] at rest
  obtain ⟨head,m'',born,rest⟩ := run_bind_eq_ok rest
  obtain ⟨same'',commit⟩ := revParseHead_ok born
  rw [same''] at rest
  cases rest
  exact ⟨head,branch,index,commit,onBranch,tracks,rfl,rfl,rfl⟩

theorem copyIndexes_ok (h : (copyIndexes checkouts).run d = (d', .ok u))
    (created : d.dir.baselineIndex = none) :
    d'.worktree = d.worktree ∧ d'.dir.baselineIndex = d.worktree.index := by
  rw [copyIndexes,run_bind_ok (run_look _)] at h
  split at h
  · cases h
    exact ⟨rfl,rfl⟩
  · next absent =>
      obtain ⟨index,m,loaded,rest⟩ := run_bind_eq_ok h
      rw [(loadIndex_ok loaded).1] at rest
      have missing : d.worktree.index = none := by simpa using absent
      cases rest
      exact ⟨rfl,created.trans missing.symm⟩

theorem resetSnapshotDir_ok (h : (resetSnapshotDir order).run d = (d', .ok u)) :
    d' = { d with dir := SnapshotDir.created } := by
  rw [resetSnapshotDir,run_bind_ok (run_look _)] at h
  split at h
  · rw [run_bind_ok (run_removeDirAll order)] at h
    cases h
    rfl
  · cases h
    rfl

theorem rejectTracked_kept {baseRevision : Commit}
    (h : (rejectTrackedFactoryArtifacts checkouts baseRevision).run d = (d', .ok u)) : d' = d := by
  rw [rejectTrackedFactoryArtifacts,run_bind_ok (run_look _)] at h
  obtain ⟨head,m,found,rest⟩ := run_bind_eq_ok h
  rw [(require_ok found).1] at rest
  split at rest
  · cases rest
  · cases rest
    rfl

theorem indexTree_some :
    indexTree repository mutated ≠ none ↔ mutated.head ≠ none ∨ mutated.index ≠ none := by
  simp only [indexTree,ne_eq,or_eq_none_iff,map_eq_none_iff,not_and_or]
  exact or_comm

theorem guarded_eq (tracks : indexTree repository before = some index) :
    guarded repository before = some (addAll repository.rules index before.files) := by
  rw [guarded,tracks]
  rfl

theorem index_isSome (tracks : indexTree checkouts.repository before = some index)
    (tracks' : indexTree checkouts.repository mutated = some index)
    (same : before.index.isSome = mutated.index.isSome) : mutated.index = before.index := by
  unfold indexTree at tracks tracks'
  cases left : before.index with
  | none =>
    rw [left] at same
    simpa using same.symm
  | some found =>
    rw [left] at tracks same
    cases right : mutated.index with
    | none =>
      rw [right] at same
      cases same
    | some found' =>
      rw [right] at tracks'
      exact tracks'.trans tracks.symm

theorem Captured.matched
    (captured : Captured checkouts workspace snapshotId before head branch index dir)
    (recorded : before.branch = some workspace.branchName) (loaded : dir.metadata = some metadata) :
    Matches workspace metadata dir := by
  obtain rfl : _ = metadata := some.inj (captured.metadata.symm.trans loaded)
  refine ⟨rfl,rfl,some.inj (captured.attached.symm.trans recorded),?_⟩
  intro had missing
  rw [captured.baseline] at missing
  simp only [missing] at had
  cases had

def ExactCall (repository : Repository Path Content Commit)
    (call : Action Path Content Commit Branch Bool) (before : Worktree Path Content Commit Branch)
    (disk : Disk Path Content Commit Branch) : Prop :=
  ∃ after changed, call.run disk = (after, .ok changed) ∧
    (changed = true ↔ Differs repository before disk.worktree) ∧
    RestoredTo repository before after.worktree

theorem exactCall_congr (repository : Repository Path Content Commit)
    (before : Worktree Path Content Commit Branch)
    {left right : Action Path Content Commit Branch Bool} (same : left.run d = right.run d) :
    ExactCall repository left before d ↔ ExactCall repository right before d := by
  unfold ExactCall
  rw [same]

structure KeepsIgnoreFiles (repository : Repository Path Content Commit)
    (before mutated : Worktree Path Content Commit Branch) : Prop where
  committed : ∀ p, repository.rules.ignoreFile p = true →
    headTree repository before p ≠ none → stagedTree repository before p ≠ none
  visible : ∀ p, repository.rules.ignoreFile p = true →
    before.files p ≠ none → stagedTree repository before p = none →
      repository.rules.ignored before.files p = false
  others : ∀ p, repository.rules.ignoreFile p = true → headTree repository before p = none →
    mutated.files p = before.files p ∧ (mutated.tracked p = none ↔ before.tracked p = none)

namespace KeepsIgnoreFiles

variable (kept : KeepsIgnoreFiles repository before mutated) {p : Path}

include kept

theorem guarded_ignoreFile (rule : repository.rules.ignoreFile p = true) :
    addAll repository.rules (stagedTree repository before) before.files p = before.files p := by
  rw [addAll_apply]
  split
  · rfl
  · next unlisted =>
      by_contra present
      simp only [Bool.or_eq_true,not_or,Bool.not_eq_true,isSome_eq_false_iff,
        isNone_iff_eq_none] at unlisted
      rw [kept.visible p rule (Ne.symm present) unlisted.1] at unlisted
      simp at unlisted

theorem unseen (tracks : indexTree repository before = some index)
    (same : ¬ Differs repository before mutated) (absent : before.files p = none)
    (present : mutated.files p ≠ none) :
    stagedTree repository before p = none ∧ repository.rules.ignored before.files p = true := by
  simp only [Differs,ne_eq,not_or,not_not] at same
  obtain ⟨sameHead,-,sameIndex,sameGuarded⟩ := same
  have sameStaged : indexTree repository mutated = indexTree repository before := by
    rw [indexTree,indexTree,sameIndex,sameHead]
  have staged : ∀ q, addAll repository.rules (stagedTree repository before) mutated.files q =
      addAll repository.rules (stagedTree repository before) before.files q := by
    rw [guarded_eq tracks,guarded_eq (sameStaged.trans tracks)] at sameGuarded
    rw [stagedTree_eq tracks,some.inj sameGuarded]
    exact fun _ => rfl
  have rules : repository.rules.ignored mutated.files p =
      repository.rules.ignored before.files p := by
    refine repository.rules.ignored_congr ?_ p
    intro q rule
    by_cases unborn : headTree repository before q = none
    · exact (kept.others q rule unborn).1
    · have tracked := isSome_iff_ne_none.mpr (kept.committed q rule unborn)
      have here := staged q
      simpa [addAll_apply,tracked] using here
  have unlisted : addAll repository.rules (stagedTree repository before) mutated.files p =
      none := by
    rw [staged,addAll_apply,absent,ite_self]
  rw [← rules]
  exact addAll_eq_none unlisted present

end KeepsIgnoreFiles

variable [DecidableEq Path]

def ignoredAtHead (repository : Repository Path Content Commit)
    (w : Worktree Path Content Commit Branch) (p : Path) : Bool :=
  repository.rules.ignored
    ((headTree repository w).overlay (w.files.restrict (fun p => (w.tracked p).isNone))) p

structure HonestReview (repository : Repository Path Content Commit)
    (before mutated : Worktree Path Content Commit Branch) : Prop where
  readable : mutated.head ≠ none ∨ mutated.index ≠ none
  created : ∀ p, before.files p = none → mutated.files p ≠ none → mutated.tracked p = none →
    headTree repository before p = none → ignoredAtHead repository before p = true →
      stagedTree repository before p = none ∧ repository.rules.ignored before.files p = true

def Survives (repository : Repository Path Content Commit) (head : Commit)
    (mutated : Worktree Path Content Commit Branch) (p : Path) : Prop :=
  mutated.files p ≠ none ∧ mutated.tracked p = none ∧ repository.tree head p = none ∧
    repository.rules.ignored
      (materialize (repository.tree head) mutated.tracked mutated.files) p = true

theorem restoredFiles_apply {p : Path} :
    restoredFiles repository head tree mutated p =
      (tree p).or (if (repository.tree head p).isNone && (mutated.tracked p).isNone &&
        repository.rules.ignored
          (materialize (repository.tree head) mutated.tracked mutated.files) p
        then mutated.files p else none) := rfl

theorem restoredFiles_survivor {p : Path} (absent : tree p = none) :
    restoredFiles repository head tree mutated p ≠ none ↔ Survives repository head mutated p := by
  rw [restoredFiles_apply,absent,none_or,Survives]
  by_cases kept : ((repository.tree head p).isNone && (mutated.tracked p).isNone &&
      repository.rules.ignored
        (materialize (repository.tree head) mutated.tracked mutated.files) p) = true
  · rw [if_pos kept]
    simp only [Bool.and_eq_true,isNone_iff_eq_none] at kept
    exact ⟨fun present => ⟨present,kept.1.2,kept.1.1,kept.2⟩,fun survives => survives.1⟩
  · rw [if_neg kept]
    refine ⟨fun present => absurd rfl present,?_⟩
    rintro ⟨_,untracked,unborn,ignored⟩
    refine absurd ?_ kept
    simp only [Bool.and_eq_true,isNone_iff_eq_none]
    exact ⟨⟨unborn,untracked⟩,ignored⟩

theorem restored_guarded {files : FileMap Path Content}
    (rules : ∀ p, repository.rules.ignored (restoredFiles repository head
      (addAll repository.rules index files) mutated) p = repository.rules.ignored files p) :
    addAll repository.rules index (restoredFiles repository head
        (addAll repository.rules index files) mutated) = addAll repository.rules index files ↔
      ∀ p, files p = none → Survives repository head mutated p →
        index p = none ∧ repository.rules.ignored files p = true := by
  have absent_of : ∀ p, files p = none → addAll repository.rules index files p = none := by
    intro p absent
    rw [addAll_apply,absent,ite_self]
  constructor
  · intro same p absent survives
    have present := (restoredFiles_survivor (absent_of p absent)).mpr survives
    have here : addAll repository.rules index (restoredFiles repository head
        (addAll repository.rules index files) mutated) p = none := by
      rw [same,absent_of p absent]
    rw [← rules p]
    exact addAll_eq_none here present
  · intro covered
    refine FileMap.ext ?_
    intro p
    rw [addAll_apply,rules p]
    by_cases listed : ((index p).isSome || !repository.rules.ignored files p) = true
    · rw [if_pos listed,restoredFiles_apply]
      cases known : files p with
      | some content =>
        rw [addAll_apply,if_pos listed,known]
        rfl
      | none =>
        rw [← restoredFiles_apply,absent_of p known]
        by_contra present
        obtain ⟨untracked,hidden⟩ :=
          covered p known ((restoredFiles_survivor (absent_of p known)).mp present)
        simp [untracked,hidden] at listed
    · rw [if_neg listed,addAll_apply,if_neg listed]

namespace KeepsIgnoreFiles

variable (kept : KeepsIgnoreFiles repository before mutated) {p : Path}

include kept

theorem restored_rules (born : before.head = some head) (p : Path) :
    repository.rules.ignored (restoredFiles repository head
        (addAll repository.rules (stagedTree repository before) before.files) mutated) p =
      repository.rules.ignored before.files p := by
  refine repository.rules.ignored_congr ?_ p
  intro q rule
  have same := kept.guarded_ignoreFile rule
  rw [restoredFiles_apply,same]
  cases known : before.files q with
  | some content => rfl
  | none =>
    rw [none_or]
    split
    · next survives =>
        simp only [Bool.and_eq_true,isNone_iff_eq_none] at survives
        have unborn : headTree repository before q = none := by
          rw [headTree_eq born]
          exact survives.1.1
        rw [(kept.others q rule unborn).1,known]
    · rfl

theorem checkout_rules (born : before.head = some head) (p : Path) :
    repository.rules.ignored
        (materialize (repository.tree head) mutated.tracked mutated.files) p =
      ignoredAtHead repository before p := by
  refine repository.rules.ignored_congr ?_ p
  intro q rule
  rw [materialize_apply,headTree_eq born,FileMap.overlay_apply,FileMap.restrict_apply]
  cases known : repository.tree head q with
  | some content => rfl
  | none =>
    obtain ⟨sameFile,sameTracked⟩ := kept.others q rule (by rw [headTree_eq born,known])
    simp only [← isNone_iff_eq_none] at sameTracked
    rw [sameFile,Bool.eq_iff_iff.mpr sameTracked]

theorem survives_iff (born : before.head = some head) :
    Survives repository head mutated p ↔
      mutated.files p ≠ none ∧ mutated.tracked p = none ∧ headTree repository before p = none ∧
        ignoredAtHead repository before p = true := by
  rw [Survives,kept.checkout_rules born,headTree_eq born]

end KeepsIgnoreFiles

variable [DecidableEq Content] [DecidableEq Commit] [DecidableEq Branch]

theorem capture_ok {snapshot : WorkspaceSnapshot}
    (h : (captureReviewSnapshot checkouts workspace snapshotId order).run d =
      (d', .ok snapshot)) :
    snapshot = ⟨workspace.jobId, snapshotId⟩ ∧ d'.worktree = d.worktree ∧
      ∃ head branch index,
        Captured checkouts workspace snapshotId d.worktree head branch index d'.dir := by
  rw [captureReviewSnapshot] at h
  obtain ⟨recovered,d1,recover,rest⟩ := run_bind_eq_ok h
  split at rest
  · cases rest
  · next unchanged =>
      obtain rfl : recovered = false := by simpa using unchanged
      have kept := recover_kept recover
      obtain ⟨_,d2,accepted,rest⟩ := run_bind_eq_ok rest
      rw [rejectTracked_kept accepted] at rest
      obtain ⟨_,d3,reset,rest⟩ := run_bind_eq_ok rest
      rw [resetSnapshotDir_ok reset] at rest
      obtain ⟨_,d4,copied,rest⟩ := run_bind_eq_ok rest
      obtain ⟨sameTree,baseline⟩ := copyIndexes_ok copied rfl
      obtain ⟨metadata,d5,built,rest⟩ := run_bind_eq_ok rest
      obtain ⟨head,branch,index,born,attached,tracks,rfl,sameTree',baseline'⟩ :=
        captureMetadata_ok built
      rw [run_bind_ok run_writeMetadata] at rest
      cases rest
      rw [sameTree] at born attached tracks
      refine ⟨rfl,sameTree'.trans (sameTree.trans kept),head,branch,index,?_⟩
      rw [← kept]
      refine ⟨born,attached,tracks,?_,baseline'.trans baseline⟩
      rw [sameTree]
      rfl

theorem Captured.changed_iff
    (captured : Captured checkouts workspace snapshotId before head branch index dir)
    (loaded : dir.metadata = some metadata) {current : FileMap Path Content}
    (tracks : indexTree checkouts.repository mutated = some current) :
    reviewChanged checkouts metadata dir.baselineIndex mutated current
        (addAll checkouts.repository.rules current mutated.files) = true ↔
      Differs checkouts.repository before mutated := by
  obtain rfl : _ = metadata := some.inj (captured.metadata.symm.trans loaded)
  have guards := guarded_eq tracks
  have guards' := guarded_eq captured.tracks
  rw [reviewChanged,Bool.false_or,decide_eq_true_iff,Differs,guards,guards',captured.born,
    captured.attached]
  constructor
  · intro changed
    by_contra same
    simp only [ne_eq,not_or,not_not,some.injEq] at same
    obtain ⟨sameHead,sameBranch,sameIndex,sameTree⟩ := same
    have sameTracked : current = index := by
      have agree : indexTree checkouts.repository mutated =
          indexTree checkouts.repository before := by
        rw [indexTree,indexTree,sameIndex,sameHead,captured.born]
      rw [tracks,captured.tracks] at agree
      exact some.inj agree
    rcases changed with h | h | h | h | h
    · exact h sameTree
    · exact h sameHead
    · exact h sameBranch
    · exact h (by rw [sameIndex])
    · exact h sameTracked
  · intro differs
    by_contra same
    simp only [ne_eq,not_or,not_not] at same
    obtain ⟨sameTree,sameHead,sameBranch,sameHad,sameTracked⟩ := same
    subst sameTracked
    rcases differs with h | h | h | h
    · exact h sameHead
    · exact h sameBranch
    · exact h (index_isSome captured.tracks tracks sameHad)
    · exact h (by rw [sameTree])

section Restore

variable (captured : Captured checkouts workspace snapshotId before head branch index dir)
  (recorded : before.branch = some workspace.branchName) (loaded : dir.metadata = some metadata)
  (kept : KeepsIgnoreFiles checkouts.repository before mutated) {current : FileMap Path Content}
  (tracks : indexTree checkouts.repository mutated = some current)

include captured recorded loaded kept tracks

theorem Captured.exact_unchanged (same : ¬ Differs checkouts.repository before mutated) :
    ExactCall checkouts.repository
      (restoreReviewSnapshotMetadata checkouts workspace order metadata) before ⟨dir, mutated⟩ := by
  have unchanged : reviewChanged checkouts metadata dir.baselineIndex mutated current
      (addAll checkouts.repository.rules current mutated.files) = false := by
    rw [← Bool.not_eq_true,captured.changed_iff loaded tracks]
    exact same
  have run := @run_restore_unchanged _ _ _ _ _ checkouts ⟨dir,mutated⟩ metadata _ _ _
    workspace order (captured.matched recorded loaded) current tracks unchanged
  have equal := same
  simp only [Differs,ne_eq,not_or,not_not] at equal
  obtain ⟨sameHead,sameBranch,sameIndex,sameGuarded⟩ := equal
  refine ⟨_,_,run,iff_of_false Bool.false_ne_true same,sameHead,sameBranch,sameIndex,
    sameGuarded,?_⟩
  intro p absent present
  exact (kept.unseen captured.tracks same absent present).2

theorem Captured.exact_changed (differs : Differs checkouts.repository before mutated) :
    ExactCall checkouts.repository
        (restoreReviewSnapshotMetadata checkouts workspace order metadata) before ⟨dir, mutated⟩ ↔
      ∀ p, before.files p = none → Survives checkouts.repository head mutated p →
        index p = none ∧ checkouts.repository.rules.ignored before.files p = true := by
  obtain ⟨dir',run,_⟩ := @run_restore_changed _ _ _ _ _ checkouts ⟨dir,mutated⟩ metadata _
    _ _ workspace order (captured.matched recorded loaded) current tracks
    ((captured.changed_iff loaded tracks).mpr differs)
  obtain rfl : _ = metadata := some.inj (captured.metadata.symm.trans loaded)
  have sameIndex : (if before.index.isSome then dir.baselineIndex else none) = before.index := by
    rw [captured.baseline]
    cases before.index <;> rfl
  simp only [sameIndex] at run
  have rules := kept.restored_rules captured.born
  rw [stagedTree_eq captured.tracks] at rules
  have guards := guarded_eq captured.tracks
  have guards' : guarded checkouts.repository (Worktree.mk (some head) (some branch)
      before.index (restoredFiles checkouts.repository head
        (addAll checkouts.repository.rules index before.files) mutated)) =
      some (addAll checkouts.repository.rules index (restoredFiles checkouts.repository head
        (addAll checkouts.repository.rules index before.files) mutated)) := by
    refine guarded_eq ?_
    rw [← captured.tracks,indexTree,indexTree,captured.born]
  rw [← restored_guarded rules]
  constructor
  · rintro ⟨after,reported,ran,_,restored⟩
    rw [run] at ran
    cases ran
    have exact_ := restored.guarded
    rw [guards',guards] at exact_
    exact some.inj exact_
  · intro same
    refine ⟨_,_,run,⟨fun _ => differs,fun _ => rfl⟩,captured.born.symm,captured.attached.symm,
      rfl,?_,?_⟩
    · rw [guards',guards,same]
    · intro p created present
      have absent : addAll checkouts.repository.rules index before.files p = none := by
        rw [addAll_apply,created,ite_self]
      exact (restored_guarded rules |>.mp same p created
        ((restoredFiles_survivor absent).mp present)).2

end Restore

theorem Captured.exact_iff
    (captured : Captured checkouts workspace snapshotId before head branch index dir)
    (recorded : before.branch = some workspace.branchName) (loaded : dir.metadata = some metadata)
    (kept : KeepsIgnoreFiles checkouts.repository before mutated) :
    ExactCall checkouts.repository
        (restoreReviewSnapshotMetadata checkouts workspace order metadata) before ⟨dir, mutated⟩ ↔
      HonestReview checkouts.repository before mutated := by
  cases tracks : indexTree checkouts.repository mutated with
  | none =>
    have unborn := @run_restore_unborn _ _ _ _ _ checkouts ⟨dir,mutated⟩ metadata _ _ _ workspace
      order (captured.matched recorded loaded) tracks
    constructor
    · rintro ⟨after,changed,run,_⟩
      rw [unborn] at run
      cases run
    · intro honest
      exact absurd tracks (indexTree_some.mpr honest.readable)
  | some current =>
    have readable : mutated.head ≠ none ∨ mutated.index ≠ none :=
      indexTree_some.mp (by rw [tracks]; rintro ⟨⟩)
    by_cases differs : Differs checkouts.repository before mutated
    · rw [captured.exact_changed recorded loaded kept tracks differs]
      simp only [kept.survives_iff captured.born,← stagedTree_eq captured.tracks]
      constructor
      · intro covered
        exact ⟨readable,fun p absent present untracked unborn hidden =>
          covered p absent ⟨present,untracked,unborn,hidden⟩⟩
      · rintro honest p absent ⟨present,untracked,unborn,hidden⟩
        exact honest.created p absent present untracked unborn hidden
    · refine iff_of_true (captured.exact_unchanged recorded loaded kept tracks differs)
        ⟨readable,?_⟩
      intro p absent present _ _ _
      exact kept.unseen captured.tracks differs absent present

def SnapshotExact (checkouts : Checkouts Path Content Commit)
    (workspace : WorkspaceRecord Commit Branch) (order : List Entry) (snapshot : WorkspaceSnapshot)
    (captured : Disk Path Content Commit Branch)
    (mutated : Worktree Path Content Commit Branch) : Prop :=
  ExactCall checkouts.repository (restoreReviewSnapshot checkouts workspace order snapshot)
      captured.worktree { captured with worktree := mutated } ∧
    ExactCall checkouts.repository (recoverReviewSnapshot checkouts workspace order)
      captured.worktree { captured with worktree := mutated }

def editedIgnore : Checkouts Nat Nat Nat :=
  ⟨⟨⟨fun p => p == 0, fun p => p == 9, fun files p => files 0 == some p⟩,
    fun _ => FileMap.single 0 1⟩, fun p => p == 9⟩

def editedWorkspace : WorkspaceRecord Nat Nat := ⟨"job", "/worktree", 0, 0⟩

def editedWorktree : Worktree Nat Nat Nat Nat :=
  ⟨some 0, some 0, some (FileMap.single 0 1), FileMap.single 0 7⟩

def editedDisk : Disk Nat Nat Nat Nat := ⟨SnapshotDir.absent, editedWorktree⟩

def editedCapture : Disk Nat Nat Nat Nat :=
  ((captureReviewSnapshot editedIgnore editedWorkspace "snapshot" []).run editedDisk).1

def meddledWorktree : Worktree Nat Nat Nat Nat :=
  { editedWorktree with
    index := some (FileMap.single 0 8)
    files := (FileMap.single 0 8).overlay ((FileMap.single 2 5).overlay (FileMap.single 8 6)) }

def hiddenFile : Worktree Nat Nat Nat Nat :=
  { editedWorktree with files := (FileMap.single 0 7).overlay (FileMap.single 1 5) }

end Workspace
