import Factory.Library.CrashTriple
import Factory.Library.Machine
import Factory.Workspace.ReviewExactness
import Mathlib.Data.List.TakeWhile

namespace Workspace

open Git Atomic Triple

variable {Path Content Commit Branch : Type} {checkouts : Checkouts Path Content Commit}
  {workspace : WorkspaceRecord Commit Branch} {detected : Prop} {order entries : List Entry}
  {d d' : Disk Path Content Commit Branch} {before : Worktree Path Content Commit Branch}
  {dir : SnapshotDir Path Content Commit Branch}
  {metadata : WorkspaceSnapshotMetadata Path Content Commit Branch}

def Detected (d : Disk Path Content Commit Branch) : Prop :=
  ∃ metadata, d.dir.metadata = some metadata ∧ metadata.mutationDetected = true

structure Recoverable (workspace : WorkspaceRecord Commit Branch)
    (d : Disk Path Content Commit Branch) : Prop where
  matched : ∀ metadata, d.dir.metadata = some metadata → Matches workspace metadata d.dir
  readable : d.dir.metadata ≠ none → d.worktree.head ≠ none ∨ d.worktree.index ≠ none

structure Kept (workspace : WorkspaceRecord Commit Branch) (detected : Prop)
    (d : Disk Path Content Commit Branch) : Prop where
  recoverable : Recoverable workspace d
  marked : detected → Detected d

structure Unset (before : Worktree Path Content Commit Branch) (detected : Prop)
    (d : Disk Path Content Commit Branch) : Prop where
  metadata : d.dir.metadata = none
  worktree : d.worktree = before
  undetected : ¬ detected

theorem Unset.kept (h : Unset before detected d) : Kept workspace detected d := by
  refine ⟨⟨fun metadata hit => ?_,fun present => absurd h.metadata present⟩,
    fun marked => absurd marked h.undetected⟩
  cases h.metadata.symm.trans hit

theorem Unset.onDir (h : Unset before detected d) (removed : dir.metadata = none) :
    Unset before detected { d with dir := dir } :=
  ⟨removed,h.worktree,h.undetected⟩

theorem Kept.onDir (h : Kept workspace detected d) (same : dir.metadata = d.dir.metadata)
    (baseline : dir.baselineIndex = d.dir.baselineIndex) :
    Kept workspace detected { d with dir := dir } := by
  refine ⟨⟨fun metadata hit => ?_,fun present => ?_⟩,fun marked => ?_⟩
  · have matched := h.recoverable.matched metadata (same.symm.trans hit)
    exact ⟨matched.job,matched.root,matched.branch,fun had => baseline ▸ matched.baseline had⟩
  · exact h.recoverable.readable (same ▸ present)
  · obtain ⟨metadata,found,changed⟩ := h.marked marked
    exact ⟨metadata,same.trans found,changed⟩

theorem Kept.onWorktree (h : Kept workspace detected d)
    {w : Worktree Path Content Commit Branch} (readable : w.head ≠ none ∨ w.index ≠ none) :
    Kept workspace detected { d with worktree := w } :=
  ⟨⟨h.recoverable.matched,fun _ => readable⟩,h.marked⟩

variable {f : SnapshotDir Path Content Commit Branch → SnapshotDir Path Content Commit Branch}
  {pre crash : Disk Path Content Commit Branch → Prop} {error : WorkspaceError}
  {snapshotId : String} {bound : Nat}

theorem onDir_unset (keeps : ∀ dir, dir.metadata = none → (f dir).metadata = none) :
    Triple bound (Unset before detected) (onDir f) (fun _ => Unset before detected)
      (Unset before detected) :=
  effect fun _ unset =>
    have after := unset.onDir (keeps _ unset.metadata)
    ⟨unset,after,after⟩

def removedBy (order : List Entry) (steps : Nat) : List Entry := (order ++ Entry.all).take steps

def metadataFirst (entries : List Entry) : Bool :=
  Entry.baselineIndex ∉ entries.takeWhile (· ≠ .metadata)

theorem metadataFirst_earlier {steps : Nat} (le : steps ≤ bound)
    (first : metadataFirst (removedBy order bound) = true) :
    metadataFirst (removedBy order steps) = true := by
  unfold metadataFirst removedBy at first ⊢
  rw [decide_eq_true_iff,← List.take_takeWhile] at first ⊢
  exact fun listed => first (List.take_subset_take_left _ le listed)

structure Removed (entries : List Entry) (d d' : Disk Path Content Commit Branch) : Prop where
  worktree : d'.worktree = d.worktree
  metadata : d'.dir.metadata = if .metadata ∈ entries then none else d.dir.metadata
  baseline : d'.dir.baselineIndex = if .baselineIndex ∈ entries then none else d.dir.baselineIndex

theorem Removed.spared (removed : Removed entries d d') (kept : Kept workspace detected d)
    (metadata : .metadata ∉ entries) (baseline : .baselineIndex ∉ entries) :
    Kept workspace detected d' := by
  have same : d' = { d with dir := d'.dir } := by rw [← removed.worktree]
  rw [same]
  exact kept.onDir (removed.metadata.trans (if_neg metadata))
    (removed.baseline.trans (if_neg baseline))

theorem Removed.kept (removed : Removed entries d d') (kept : Kept workspace detected d)
    (undetected : ¬ detected) (first : metadataFirst entries = true) :
    Kept workspace detected d' := by
  by_cases erased : .metadata ∈ entries
  · exact Unset.kept ⟨removed.metadata.trans (if_pos erased),rfl,undetected⟩
  · have whole : entries.takeWhile (· ≠ .metadata) = entries := by
      refine List.takeWhile_eq_self_iff.mpr fun entry listed => decide_eq_true ?_
      rintro rfl
      exact erased listed
    rw [metadataFirst,whole,decide_eq_true_iff] at first
    exact removed.spared kept erased first

theorem reached_removeEntries {i : Nat} (hit : ((removeEntries entries).reached d)[i]? = some d') :
    Removed (entries.take i) d d' := by
  induction entries generalizing d i with
  | nil =>
    obtain rfl : d' = d := List.mem_singleton.mp (List.mem_of_getElem? hit)
    exact ⟨rfl,by simp,by simp⟩
  | cons entry rest ih =>
    cases i with
    | zero =>
      cases hit
      exact ⟨rfl,rfl,rfl⟩
    | succ i =>
      obtain ⟨worktree,metadata,baseline⟩ :=
        @ih { d with dir := d.dir.removeEntry entry } i hit
      refine ⟨worktree,metadata.trans ?_,baseline.trans ?_⟩
      · cases entry <;> simp [SnapshotDir.removeEntry]
      · cases entry <;> simp [SnapshotDir.removeEntry]

theorem length_removeEntries : ((removeEntries entries).reached d).length = entries.length + 1 := by
  induction entries generalizing d with
  | nil => rfl
  | cons entry rest ih => exact congrArg (· + 1) ih

theorem reached_removeDirAll {i : Nat} (hit : ((removeDirAll order).reached d)[i]? = some d') :
    Removed (removedBy order i) d d' := by
  rw [removeDirAll,reached_bind_ok (run_removeEntries _)] at hit
  rcases Nat.lt_or_ge i ((removeEntries (order ++ Entry.all)).reached d).length with early | late
  · rw [List.getElem?_append_left early] at hit
    exact reached_removeEntries hit
  · rw [List.getElem?_append_right late] at hit
    rw [length_removeEntries] at late
    have whole : removedBy order i = order ++ Entry.all :=
      List.take_of_length_le (Nat.le_of_succ_le late)
    rw [whole,List.mem_singleton.mp (List.mem_of_getElem? hit)]
    exact ⟨rfl,by simp [Entry.all,SnapshotDir.absent],by simp [Entry.all,SnapshotDir.absent]⟩

theorem removeDirAll_spared (metadata : .metadata ∉ removedBy order bound)
    (baseline : .baselineIndex ∉ removedBy order bound) :
    Triple bound (fun d : Disk Path Content Commit Branch => Kept workspace detected d)
      (removeDirAll order) (fun _ _ => True) (Kept workspace detected) := by
  refine fun d kept => ⟨fun i le t hit => ?_,fun _ _ _ => trivial⟩
  have earlier := List.take_subset_take_left (order ++ Entry.all) le
  exact (reached_removeDirAll hit).spared kept (fun listed => metadata (earlier listed))
    fun listed => baseline (earlier listed)

theorem removeDirAll_kept (undetected : ¬ detected)
    (first : metadataFirst (removedBy order bound) = true) :
    Triple bound (fun d => Kept workspace detected d ∧ d.worktree = before) (removeDirAll order)
      (fun _ => Unset before detected) (Kept workspace detected) := by
  rintro d ⟨kept,rfl⟩
  refine ⟨fun i le t hit => ?_,fun _ t ran => ?_⟩
  · exact (reached_removeDirAll hit).kept kept undetected (metadataFirst_earlier le first)
  · rw [run_removeDirAll] at ran
    cases ran
    exact ⟨rfl,rfl,undetected⟩

theorem removeDirAll_unset :
    Triple bound (Unset before detected) (removeDirAll order) (fun _ => Unset before detected)
      (Unset before detected) := by
  refine fun d unset => ⟨fun i _ t hit => ?_,fun _ t ran => ?_⟩
  · have removed := reached_removeDirAll hit
    refine ⟨?_,removed.worktree.trans unset.worktree,unset.undetected⟩
    rw [removed.metadata,unset.metadata,ite_self]
  · rw [run_removeDirAll] at ran
    cases ran
    exact unset.onDir rfl

theorem require_kept {α : Type} {value : Option α} (safe : ∀ d, pre d → crash d) :
    Triple bound pre (require value error) (fun a d => value = some a ∧ pre d) crash := by
  cases value with
  | none => exact fail safe
  | some found => exact pure fun d holds => ⟨safe d holds,rfl,holds⟩

theorem acknowledge_spared (metadata : .metadata ∉ removedBy order bound)
    (baseline : .baselineIndex ∉ removedBy order bound) :
    Triple bound (fun d : Disk Path Content Commit Branch => Kept workspace detected d)
      (acknowledgeReviewMutation workspace order) (fun _ _ => True) (Kept workspace detected) := by
  refine (Triple.look fun _ kept => kept).bind fun found => ignore ?_
  refine (require_kept fun _ kept => kept).bind fun _ => ignore ?_
  exact ite (fun _ => fail fun _ kept => kept) fun _ => removeDirAll_spared metadata baseline

theorem requireField_kept {α : Type} {field : Disk Path Content Commit Branch → Option α}
    (safe : ∀ d, pre d → crash d) :
    Triple bound pre (Atomic.look field >>= fun value => require value error) (fun _ => pre)
      crash :=
  (look safe).bind fun _ => ignore
    ((require_kept safe).weaken (fun _ holds => holds) (fun _ _ holds => holds.2)
      fun _ holds => holds)

theorem loadIndex_kept (safe : ∀ d, pre d → crash d) :
    Triple bound pre (loadIndex checkouts) (fun _ => pre) crash := by
  refine (look safe).bind fun worktree => ?_
  split
  · exact pure fun d holds => ⟨safe d holds.2,holds.2⟩
  · refine (require_kept fun d holds => safe d holds.2).bind fun _ => ?_
    exact pure fun d holds => ⟨safe d holds.2.2,holds.2.2⟩

structure Loaded (workspace : WorkspaceRecord Commit Branch) (detected : Prop)
    (metadata : WorkspaceSnapshotMetadata Path Content Commit Branch)
    (before : Worktree Path Content Commit Branch) (d : Disk Path Content Commit Branch) :
    Prop where
  kept : Kept workspace detected d
  metadata : d.dir.metadata = some metadata
  worktree : d.worktree = before

theorem Loaded.onDir (h : Loaded workspace detected metadata before d)
    (same : dir.metadata = d.dir.metadata) (baseline : dir.baselineIndex = d.dir.baselineIndex) :
    Loaded workspace detected metadata before { d with dir := dir } :=
  ⟨h.kept.onDir same baseline,same.trans h.metadata,h.worktree⟩

theorem onDir_loaded (same : ∀ dir, (f dir).metadata = dir.metadata)
    (baseline : ∀ dir, (f dir).baselineIndex = dir.baselineIndex) :
    Triple bound (Loaded workspace detected metadata before) (onDir f)
      (fun _ => Loaded workspace detected metadata before) (Kept workspace detected) :=
  effect fun _ loaded =>
    have after := loaded.onDir (same _) (baseline _)
    ⟨loaded.kept,after.kept,after⟩

theorem writeMetadata_crash
    (h : ∀ d, pre d → crash d ∧ crash { d with dir := { d.dir with candidate := some metadata } } ∧
      crash { d with dir := { d.dir with metadata := some metadata, candidate := none } }) :
    Triple bound pre (writeReviewSnapshotMetadata metadata) (fun _ => crash) crash := by
  intro d holds
  obtain ⟨start,candidate,renamed⟩ := h d holds
  refine ⟨fun i _ t hit => ?_,fun _ t ran => ?_⟩
  · replace hit : t ∈ [d,_,_] := List.mem_of_getElem? hit
    simp only [List.mem_cons,List.not_mem_nil,or_false] at hit
    rcases hit with rfl | rfl | rfl
    · exact start
    · exact candidate
    · exact renamed
  · cases ran
    exact renamed

theorem writeDetected_kept :
    Triple bound (Loaded workspace detected metadata before)
      (writeReviewSnapshotMetadata { metadata with mutationDetected := true })
      (fun _ => Kept workspace detected) (Kept workspace detected) := by
  refine writeMetadata_crash fun d loaded => ⟨loaded.kept,loaded.kept.onDir rfl rfl,?_⟩
  have matched := loaded.kept.recoverable.matched metadata loaded.metadata
  refine ⟨⟨fun written hit => ?_,fun _ => ?_⟩,fun _ => ⟨_,rfl,rfl⟩⟩
  · cases hit
    exact ⟨matched.job,matched.root,matched.branch,matched.baseline⟩
  · refine loaded.kept.recoverable.readable ?_
    rw [loaded.metadata]
    exact nofun

theorem markMutation_kept :
    Triple bound (Loaded workspace detected metadata before) (markMutation metadata)
      (fun _ => Kept workspace detected) (Kept workspace detected) := by
  refine ite (fun _ => ?_) fun _ => writeDetected_kept
  exact pure fun _ loaded => ⟨loaded.kept,loaded.kept⟩

theorem compareWorktree_loaded :
    Triple bound (Loaded workspace detected metadata before) (compareWorktree checkouts)
      (fun _ => Loaded workspace detected metadata before) (Kept workspace detected) := by
  refine (loadIndex_kept fun _ loaded => loaded.kept).bind fun index => ?_
  refine bind (onDir_loaded ?_ ?_) fun _ => ?_
  · exact fun _ => rfl
  · exact fun _ => rfl
  refine (look fun _ loaded => loaded.kept).bind fun files => ignore ?_
  refine bind (onDir_loaded ?_ ?_) fun _ => ?_
  · exact fun _ => rfl
  · exact fun _ => rfl
  exact pure fun _ loaded => ⟨loaded.kept,loaded⟩

theorem onWorktree_kept
    {f : Worktree Path Content Commit Branch → Worktree Path Content Commit Branch}
    (born : ∀ w, w.head ≠ none → (f w).head ≠ none) :
    Triple bound (fun d => Kept workspace detected d ∧ d.worktree.head ≠ none) (onWorktree f)
      (fun _ d => Kept workspace detected d ∧ d.worktree.head ≠ none)
      (Kept workspace detected) :=
  effect fun d kept =>
    have head := born d.worktree kept.2
    have after := kept.1.onWorktree (.inl head)
    ⟨kept.1,after,after,head⟩

theorem rejectTracked_unset {baseRevision : Commit} :
    Triple bound (Unset before detected) (rejectTrackedFactoryArtifacts checkouts baseRevision)
      (fun _ => Unset before detected) (Unset before detected) := by
  refine (Triple.look fun _ unset => unset).bind fun worktree => Triple.ignore ?_
  refine (require_kept fun _ unset => unset).bind fun head => Triple.ignore ?_
  refine ite (fun _ => fail fun _ unset => unset) fun _ => ?_
  exact pure fun _ unset => ⟨unset,unset⟩

theorem resetSnapshotDir_unset :
    Triple bound (Unset before detected) (resetSnapshotDir order)
      (fun _ d => Unset before detected d ∧ d.dir.baselineIndex = none)
      (Unset before detected) := by
  have reset : Triple bound (Unset before detected) (resetSnapshotDir order)
      (fun _ => Unset before detected) (Unset before detected) := by
    refine (Triple.look fun _ unset => unset).bind fun disk => Triple.ignore ?_
    have created : Triple bound (Unset before detected) (onDir (fun _ => SnapshotDir.created))
        (fun _ => Unset before detected) (Unset before detected) := onDir_unset fun _ _ => rfl
    exact Triple.ite (fun _ => removeDirAll_unset.bind fun _ => created) fun _ => created
  intro d unset
  refine ⟨(reset d unset).1,fun u t ran => ⟨(reset d unset).2 u t ran,?_⟩⟩
  rw [resetSnapshotDir_ok ran]
  rfl

theorem copyIndexes_unset :
    Triple bound (fun d => Unset before detected d ∧ d.dir.baselineIndex = none)
      (copyIndexes checkouts)
      (fun _ d => Unset before detected d ∧ d.dir.baselineIndex = before.index)
      (Unset before detected) := by
  have copied : Triple bound (Unset before detected) (copyIndexes checkouts)
      (fun _ => Unset before detected) (Unset before detected) := by
    refine (Triple.look fun _ unset => unset).bind fun worktree => Triple.ignore ?_
    refine Triple.ite (fun _ => ?_) fun _ => ?_
    · refine bind (onDir_unset ?_) fun _ => onDir_unset ?_
      · exact fun _ removed => removed
      · exact fun _ removed => removed
    · refine (loadIndex_kept fun _ unset => unset).bind fun index => onDir_unset ?_
      exact fun _ removed => removed
  intro d unset
  refine ⟨(copied d unset.1).1,fun u t ran => ⟨(copied d unset.1).2 u t ran,?_⟩⟩
  rw [(copyIndexes_ok ran unset.2).2,unset.1.worktree]

theorem captureMetadata_unset :
    Triple bound (fun d => Unset before detected d ∧ d.dir.baselineIndex = before.index)
      (captureMetadata checkouts workspace snapshotId)
      (fun metadata d => (Unset before detected d ∧ d.dir.baselineIndex = before.index) ∧
        before.head ≠ none ∧ before.branch = some metadata.branchName ∧
        metadata.jobId = workspace.jobId ∧ metadata.root = workspace.root ∧
        metadata.hadIndex = before.index.isSome)
      (Unset before detected) := by
  have built : Triple bound (Unset before detected) (captureMetadata checkouts workspace snapshotId)
      (fun _ => Unset before detected) (Unset before detected) := by
    refine (Triple.look fun _ unset => unset).bind fun worktree => Triple.ignore ?_
    refine (loadIndex_kept fun _ unset => unset).bind fun index => ?_
    refine Triple.bind (onDir_unset ?_) fun _ => ?_
    · exact fun _ removed => removed
    refine (requireField_kept fun _ unset => unset).bind fun branch => ?_
    refine (requireField_kept fun _ unset => unset).bind fun head => ?_
    exact Triple.pure fun _ unset => ⟨unset,unset⟩
  intro d unset
  refine ⟨(built d unset.1).1,fun metadata t ran => ?_⟩
  obtain ⟨head,branch,index,born,attached,_,shape,_,baseline⟩ := captureMetadata_ok ran
  rw [unset.1.worktree] at born attached shape
  rw [shape]
  refine ⟨⟨(built d unset.1).2 metadata t ran,baseline.trans unset.2⟩,?_,attached,rfl,rfl,rfl⟩
  rw [born]
  exact nofun

theorem writeCaptured_kept (recorded : before.branch = some workspace.branchName) :
    Triple bound (fun d => (Unset before detected d ∧ d.dir.baselineIndex = before.index) ∧
        before.head ≠ none ∧ before.branch = some metadata.branchName ∧
        metadata.jobId = workspace.jobId ∧ metadata.root = workspace.root ∧
        metadata.hadIndex = before.index.isSome)
      (writeReviewSnapshotMetadata metadata) (fun _ => Kept workspace detected)
      (Kept workspace detected) := by
  refine writeMetadata_crash ?_
  rintro d ⟨⟨unset,baseline⟩,born,attached,job,root,had⟩
  refine ⟨unset.kept,unset.kept.onDir rfl rfl,?_⟩
  refine ⟨⟨fun written hit => ?_,fun _ => .inl ?_⟩,fun marked => absurd marked unset.undetected⟩
  · cases hit
    refine ⟨job,root,Option.some.inj (attached.symm.trans recorded),fun present => ?_⟩
    rw [had,Option.isSome_iff_ne_none,← baseline] at present
    exact present
  · rw [unset.worktree]
    exact born

variable [DecidableEq Path]

theorem restoreWorktree_kept {baselineIndex : Option (FileMap Path Content)} :
    Triple bound (Kept workspace detected) (restoreWorktree checkouts metadata baselineIndex)
      (fun _ => Kept workspace detected) (Kept workspace detected) := by
  have born : ∀ w : Worktree Path Content Commit Branch,
      (w.checkout checkouts.repository metadata.branchName metadata.head).head ≠ none ∧
        (w.resetHard checkouts.repository metadata.head).head ≠ none := fun _ => ⟨nofun,nofun⟩
  have checkedOut : Triple bound (Kept workspace detected)
      (onWorktree (Worktree.checkout checkouts.repository metadata.branchName metadata.head))
      (fun _ d => Kept workspace detected d ∧ d.worktree.head ≠ none)
      (Kept workspace detected) :=
    effect fun d kept =>
      have after := kept.onWorktree (.inl (born d.worktree).1)
      ⟨kept,after,after,(born d.worktree).1⟩
  refine checkedOut.bind fun _ => ?_
  refine bind (onWorktree_kept ?_) fun _ => ?_
  · exact fun w _ => (born w).2
  refine bind (onWorktree_kept ?_) fun _ => ?_
  · exact fun w head => head
  refine bind (onWorktree_kept ?_) fun _ => ?_
  · exact fun w head => head
  refine weaken (onWorktree_kept ?_) (fun _ kept => kept) (fun _ _ kept => kept.1)
    fun _ kept => kept
  exact fun w head => head

variable [DecidableEq Content] [DecidableEq Commit] [DecidableEq Branch]

theorem restoreMetadata_kept (first : metadataFirst (removedBy order bound) = true) :
    Triple bound (Loaded workspace detected metadata before)
      (restoreReviewSnapshotMetadata checkouts workspace order metadata)
      (fun changed d => Kept workspace detected d ∧ (changed = false → Unset before detected d))
      (Kept workspace detected) := by
  refine ite (fun _ => fail fun _ loaded => loaded.kept) fun _ => ?_
  refine (look fun _ loaded => loaded.kept).bind fun disk => ignore ?_
  refine ite (fun _ => fail fun _ loaded => loaded.kept) fun _ => ?_
  refine compareWorktree_loaded.bind fun compared => ?_
  refine ite (fun _ => ?_) fun unchanged => ?_
  · refine markMutation_kept.bind fun _ => restoreWorktree_kept.bind fun _ => ?_
    exact pure fun _ kept => ⟨kept,kept,nofun⟩
  · have unmarked : metadata.mutationDetected = false := by
      simp only [reviewChanged,Bool.or_eq_true,not_or,Bool.not_eq_true] at unchanged
      exact unchanged.1
    intro d loaded
    have undetected : ¬ detected := by
      intro marked
      obtain ⟨found,same,changed⟩ := loaded.kept.marked marked
      cases loaded.metadata.symm.trans same
      cases unmarked.symm.trans changed
    have removed : Triple bound (fun d => Kept workspace detected d ∧ d.worktree = before) (do
        removeDirAll order
        Pure.pure false)
        (fun changed d => Kept workspace detected d ∧ (changed = false → Unset before detected d))
        (Kept workspace detected) :=
      (removeDirAll_kept undetected first).bind fun _ =>
        pure fun _ unset => ⟨unset.kept,unset.kept,fun _ => unset⟩
    exact removed d ⟨loaded.kept,loaded.worktree⟩

theorem recover_crash (first : metadataFirst (removedBy order bound) = true) :
    Triple bound (fun d => Kept workspace detected d ∧ d.worktree = before)
      (recoverReviewSnapshot checkouts workspace order)
      (fun changed d => Kept workspace detected d ∧ (changed = false → Unset before detected d))
      (Kept workspace detected) := by
  refine (look fun _ kept => kept.1).bind fun found => ?_
  cases found with
  | none =>
    refine pure fun d kept => ⟨kept.2.1,kept.2.1,fun _ => ?_⟩
    refine ⟨kept.1.symm,kept.2.2,fun marked => ?_⟩
    obtain ⟨_,found,_⟩ := kept.2.1.marked marked
    cases kept.1.trans found
  | some metadata =>
    exact (restoreMetadata_kept first).weaken (fun d kept => ⟨kept.2.1,kept.1.symm,kept.2.2⟩)
      (fun _ _ kept => kept) fun _ kept => kept

theorem restore_crash {snapshot : WorkspaceSnapshot}
    (first : metadataFirst (removedBy order bound) = true) :
    Triple bound (fun d => Kept workspace detected d ∧ d.worktree = before)
      (restoreReviewSnapshot checkouts workspace order snapshot)
      (fun _ => Kept workspace detected) (Kept workspace detected) := by
  refine ite (fun _ => fail fun _ kept => kept.1) fun _ => ?_
  refine (look fun _ kept => kept.1).bind fun found => ?_
  refine (require_kept fun _ kept => kept.2.1).bind fun metadata => ?_
  refine ite (fun _ => fail fun _ kept => kept.2.2.1) fun _ => ?_
  exact (restoreMetadata_kept first).weaken
    (fun d kept => ⟨kept.2.2.1,kept.2.1.symm.trans kept.1,kept.2.2.2⟩)
    (fun _ _ kept => kept.1) fun _ kept => kept

theorem capture_crash (first : metadataFirst (removedBy order bound) = true)
    (recorded : before.branch = some workspace.branchName) :
    Triple bound (fun d => Kept workspace detected d ∧ d.worktree = before)
      (captureReviewSnapshot checkouts workspace snapshotId order)
      (fun _ => Kept workspace detected) (Kept workspace detected) := by
  refine (recover_crash first).bind fun recovered => ?_
  refine ite (fun _ => fail fun _ kept => kept.1) fun same => ?_
  have unset_kept : ∀ d, Unset before detected d → Kept workspace detected d :=
    fun _ unset => unset.kept
  refine bind (rejectTracked_unset.weaken
    (fun _ kept => kept.2 (Bool.eq_false_iff.mpr same)) (fun _ _ unset => unset) unset_kept)
    fun _ => ?_
  refine bind (resetSnapshotDir_unset.weaken (fun _ unset => unset) (fun _ _ unset => unset)
    unset_kept) fun _ => ?_
  refine bind (copyIndexes_unset.weaken (fun _ unset => unset) (fun _ _ unset => unset)
    unset_kept) fun _ => ?_
  refine bind (captureMetadata_unset.weaken (fun _ unset => unset)
    (fun _ _ unset => unset) unset_kept) fun metadata => ?_
  refine (writeCaptured_kept recorded).bind fun _ => ?_
  exact pure fun _ kept => ⟨kept,kept⟩

end Workspace
