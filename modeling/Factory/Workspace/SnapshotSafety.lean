import Factory.Workspace.ReviewCrash

namespace Workspace

open Git Atomic

inductive SnapshotCall where
  | capture (snapshotId : String)
  | restore (snapshot : WorkspaceSnapshot)
  | recover
  | acknowledge
  deriving DecidableEq

inductive SnapshotStep (Path Content Commit Branch : Type) where
  | worktree (next : Worktree Path Content Commit Branch)
  | call (call : SnapshotCall) (order : List Entry) (crash : Option Nat)

structure SnapshotRun (Path Content Commit Branch : Type) where
  disk : Disk Path Content Commit Branch
  detected : Bool

variable {Path Content Commit Branch : Type}

def Disk.mutationDetected (d : Disk Path Content Commit Branch) : Bool :=
  d.dir.metadata.any (·.mutationDetected)

def interrupted (action : Action Path Content Commit Branch Unit) (crash : Option Nat)
    (d : Disk Path Content Commit Branch) : Option (Disk Path Content Commit Branch) :=
  crash.bind (fun k => (action.reached d).dropLast[k]?)

namespace SnapshotRun

def start (worktree : Worktree Path Content Commit Branch) :
    SnapshotRun Path Content Commit Branch :=
  ⟨⟨SnapshotDir.absent, worktree⟩, false⟩

end SnapshotRun

section

variable [DecidableEq Path] [DecidableEq Content] [DecidableEq Commit] [DecidableEq Branch]
  (checkouts : Checkouts Path Content Commit) (workspace : WorkspaceRecord Commit Branch)

def SnapshotCall.action (order : List Entry) :
    SnapshotCall → Action Path Content Commit Branch Unit
  | .capture snapshotId => do
      let _ ← captureReviewSnapshot checkouts workspace snapshotId order
      Pure.pure ()
  | .restore snapshot => do
      let _ ← restoreReviewSnapshot checkouts workspace order snapshot
      Pure.pure ()
  | .recover => do
      let _ ← recoverReviewSnapshot checkouts workspace order
      Pure.pure ()
  | .acknowledge => acknowledgeReviewMutation workspace order

namespace SnapshotRun

def step (s : SnapshotRun Path Content Commit Branch) :
    SnapshotStep Path Content Commit Branch → SnapshotRun Path Content Commit Branch
  | .worktree next => { s with disk := { s.disk with worktree := next } }
  | .call call order crash =>
    let action := call.action checkouts workspace order
    match interrupted action crash s.disk with
    | some disk => ⟨disk, s.detected || disk.mutationDetected⟩
    | none =>
      let finished := action.run s.disk
      ⟨finished.1, !(call = .acknowledge && finished.2.isOk) &&
        (s.detected || finished.1.mutationDetected)⟩

def Recovers (s : SnapshotRun Path Content Commit Branch) : Prop :=
  ∀ order, ∃ after changed,
    (recoverReviewSnapshot checkouts workspace order).run s.disk = (after, .ok changed) ∧
      (s.detected = true → changed = true)

def Careful (s : SnapshotRun Path Content Commit Branch) :
    SnapshotStep Path Content Commit Branch → Prop
  | .worktree next => next.head ≠ none ∨ next.index ≠ none
  | .call (.capture _) order crash => s.disk.worktree.branch = some workspace.branchName ∧
      ∀ steps ∈ crash, metadataFirst (removedBy order steps) = true
  | .call (.restore _) order crash | .call .recover order crash =>
    ∀ steps ∈ crash, metadataFirst (removedBy order steps) = true
  | .call .acknowledge order crash =>
    ∀ steps ∈ crash, .metadata ∉ removedBy order steps ∧ .baselineIndex ∉ removedBy order steps

instance (s : SnapshotRun Path Content Commit Branch) :
    ∀ input, Decidable (s.Careful workspace input)
  | .worktree _ => inferInstanceAs (Decidable (_ ∨ _))
  | .call (.capture _) _ _ => inferInstanceAs (Decidable (_ ∧ _))
  | .call (.restore _) _ _ | .call .recover _ _ | .call .acknowledge _ _ =>
    inferInstanceAs (Decidable (∀ steps ∈ _, _))

end SnapshotRun

end

section

variable {workspace : WorkspaceRecord Commit Branch} {order : List Entry}
  {d : Disk Path Content Commit Branch}

theorem mutationDetected_iff : d.mutationDetected = true ↔ Detected d := by
  simp only [Disk.mutationDetected,Option.any_eq_true,Detected]

theorem interrupted_reached {action : Action Path Content Commit Branch Unit} {crash : Option Nat}
    {left : Disk Path Content Commit Branch} (stopped : interrupted action crash d = some left) :
    ∃ steps ∈ crash, (action.reached d)[steps]? = some left := by
  obtain ⟨steps,chosen,hit⟩ := Option.bind_eq_some_iff.mp stopped
  rw [List.getElem?_dropLast] at hit
  split at hit
  · exact ⟨steps,chosen,hit⟩
  · cases hit

theorem run_acknowledge (workspace : WorkspaceRecord Commit Branch) (order : List Entry)
    (d : Disk Path Content Commit Branch) :
    (∃ error, (acknowledgeReviewMutation workspace order).run d = (d, .error error)) ∨
      (acknowledgeReviewMutation workspace order).run d =
        ({ d with dir := SnapshotDir.absent }, .ok ()) := by
  unfold acknowledgeReviewMutation
  rw [run_bind_ok run_loadReviewSnapshot]
  cases found : d.dir.metadata with
  | none => exact .inl ⟨_,rfl⟩
  | some metadata =>
    rw [run_bind_ok (run_require_some _ _)]
    split
    · exact .inl ⟨_,rfl⟩
    · exact .inr (run_removeDirAll order)

theorem SnapshotRun.kept_after {s : SnapshotRun Path Content Commit Branch}
    {d' : Disk Path Content Commit Branch}
    (kept : Kept workspace (s.detected = true) d') :
    Kept workspace ((s.detected || d'.mutationDetected) = true) d' := by
  refine ⟨kept.recoverable,fun marked => ?_⟩
  rcases (Bool.or_eq_true _ _).mp marked with before | now
  · exact kept.marked before
  · exact mutationDetected_iff.mp now

end

section

variable [DecidableEq Path] [DecidableEq Content] [DecidableEq Commit] [DecidableEq Branch]
  {checkouts : Checkouts Path Content Commit} {workspace : WorkspaceRecord Commit Branch}
  {order : List Entry} {d : Disk Path Content Commit Branch} {detected : Prop}

theorem restoreMetadata_order
    {metadata : WorkspaceSnapshotMetadata Path Content Commit Branch} :
    (restoreReviewSnapshotMetadata checkouts workspace order metadata).run d =
      (restoreReviewSnapshotMetadata checkouts workspace [] metadata).run d := by
  unfold restoreReviewSnapshotMetadata
  split
  · rfl
  · refine run_bind_congr rfl fun disk t => ?_
    dsimp only
    split
    · rfl
    · refine run_bind_congr rfl fun compared t => ?_
      split
      · rfl
      · rw [run_bind_ok (run_removeDirAll order),run_bind_ok (run_removeDirAll [])]

theorem recover_order :
    (recoverReviewSnapshot checkouts workspace order).run d =
      (recoverReviewSnapshot checkouts workspace []).run d := by
  refine run_bind_congr rfl fun found t => ?_
  cases found with
  | none => rfl
  | some metadata => exact restoreMetadata_order

theorem restore_order {snapshot : WorkspaceSnapshot} :
    (restoreReviewSnapshot checkouts workspace order snapshot).run d =
      (restoreReviewSnapshot checkouts workspace [] snapshot).run d := by
  unfold restoreReviewSnapshot
  split
  · rfl
  · refine run_bind_congr rfl fun found t => run_bind_congr rfl fun metadata t => ?_
    split
    · rfl
    · exact restoreMetadata_order

theorem capture_order {snapshotId : String} :
    (captureReviewSnapshot checkouts workspace snapshotId order).run d =
      (captureReviewSnapshot checkouts workspace snapshotId []).run d := by
  have reset : ∀ d : Disk Path Content Commit Branch,
      (resetSnapshotDir order).run d = (resetSnapshotDir []).run d := by
    intro d
    refine run_bind_congr rfl fun disk t => ?_
    dsimp only
    split
    · rw [run_bind_ok (run_removeDirAll order),run_bind_ok (run_removeDirAll [])]
    · rfl
  refine run_bind_congr recover_order fun recovered t => ?_
  split
  · rfl
  · exact run_bind_congr rfl fun _ t => run_bind_congr (reset t) fun _ t => rfl

variable {call : SnapshotCall}

theorem action_order (other : call ≠ .acknowledge) :
    (call.action checkouts workspace order).run d =
      (call.action checkouts workspace []).run d := by
  cases call with
  | capture snapshotId => exact run_bind_congr capture_order fun _ _ => rfl
  | restore snapshot => exact run_bind_congr restore_order fun _ _ => rfl
  | recover => exact run_bind_congr recover_order fun _ _ => rfl
  | acknowledge => exact absurd rfl other

theorem action_kept {bound : Nat} (other : call ≠ .acknowledge)
    (recorded : ∀ snapshotId, call = .capture snapshotId →
      d.worktree.branch = some workspace.branchName)
    (first : metadataFirst (removedBy order bound) = true) (kept : Kept workspace detected d) :
    ∀ i ≤ bound, ∀ t, ((call.action checkouts workspace order).reached d)[i]? = some t →
      Kept workspace detected t := by
  have discard : Triple bound (Kept workspace detected)
      (Pure.pure () : Action Path Content Commit Branch Unit)
      (fun _ => Kept workspace detected) (Kept workspace detected) :=
    Triple.pure fun _ kept => ⟨kept,kept⟩
  cases call with
  | capture snapshotId =>
    have branch := recorded snapshotId rfl
    exact (((capture_crash first branch).bind fun _ => discard) d ⟨kept,rfl⟩).1
  | restore snapshot =>
    exact (((restore_crash first).bind fun _ => discard) d ⟨kept,rfl⟩).1
  | recover =>
    exact (((recover_crash first).bind fun _ => discard.weaken (fun _ kept => kept.1)
      (fun _ _ kept => kept) fun _ kept => kept) d ⟨kept,rfl⟩).1
  | acknowledge => exact absurd rfl other

namespace SnapshotRun

variable {s : SnapshotRun Path Content Commit Branch}
  {input : SnapshotStep Path Content Commit Branch} {crash : Option Nat}

theorem kept_other {call : SnapshotCall} (other : call ≠ .acknowledge)
    (recorded : ∀ snapshotId, call = .capture snapshotId →
      s.disk.worktree.branch = some workspace.branchName)
    (first : ∀ steps ∈ crash, metadataFirst (removedBy order steps) = true)
    (kept : Kept workspace (s.detected = true) s.disk) :
    Kept workspace ((s.step checkouts workspace (.call call order crash)).detected = true)
      (s.step checkouts workspace (.call call order crash)).disk := by
  unfold step
  dsimp only
  split
  · next left stopped =>
      obtain ⟨steps,chosen,hit⟩ := interrupted_reached stopped
      exact kept_after
        (action_kept other recorded (first steps chosen) kept steps le_rfl left hit)
  · have final : Kept workspace (s.detected = true)
        ((call.action checkouts workspace order).run s.disk).1 := by
      rw [action_order other]
      obtain ⟨i,hit⟩ := List.mem_iff_getElem?.mp
        (run_mem_reached (call.action checkouts workspace []) s.disk)
      have first : metadataFirst (removedBy [] i) = true := by cases i <;> rfl
      exact action_kept other recorded first kept i le_rfl _ hit
    have undone : decide (call = .acknowledge) = false := decide_eq_false other
    simp only [undone,Bool.false_and,Bool.not_false,Bool.true_and]
    exact kept_after final

theorem kept_acknowledge
    (spared : ∀ steps ∈ crash,
      .metadata ∉ removedBy order steps ∧ .baselineIndex ∉ removedBy order steps)
    (kept : Kept workspace (s.detected = true) s.disk) :
    Kept workspace ((s.step checkouts workspace (.call .acknowledge order crash)).detected = true)
      (s.step checkouts workspace (.call .acknowledge order crash)).disk := by
  unfold step
  dsimp only
  split
  · next left stopped =>
      obtain ⟨steps,chosen,hit⟩ := interrupted_reached stopped
      obtain ⟨metadata,baseline⟩ := spared steps chosen
      exact kept_after ((acknowledge_spared metadata baseline s.disk kept).1 steps le_rfl left hit)
  · rcases run_acknowledge workspace order s.disk with ⟨error,ran⟩ | ran
    · simp only [SnapshotCall.action,ran]
      exact kept_after kept
    · simp only [SnapshotCall.action,ran]
      exact ⟨⟨nofun,fun present => absurd rfl present⟩,nofun⟩

theorem Careful.step (careful : s.Careful workspace input)
    (kept : Kept workspace (s.detected = true) s.disk) :
    Kept workspace ((s.step checkouts workspace input).detected = true)
      (s.step checkouts workspace input).disk := by
  cases input with
  | worktree next => exact kept.onWorktree careful
  | call call order crash =>
    cases call with
    | capture snapshotId => exact kept_other nofun (fun _ _ => careful.1) careful.2 kept
    | restore | recover => exact kept_other nofun nofun careful kept
    | acknowledge => exact kept_acknowledge careful kept

theorem recovers_of_kept (kept : Kept workspace (s.detected = true) s.disk) :
    s.Recovers checkouts workspace := by
  intro order
  cases found : s.disk.dir.metadata with
  | none =>
    refine ⟨s.disk,false,?_,fun detected => ?_⟩
    · rw [recoverReviewSnapshot,run_bind_ok run_loadReviewSnapshot,found]
      rfl
    · obtain ⟨metadata,present,_⟩ := kept.marked detected
      cases found.symm.trans present
  | some metadata =>
    have matched := kept.recoverable.matched metadata found
    have readable := kept.recoverable.readable (by simp [found])
    have tracked : indexTree checkouts.repository s.disk.worktree ≠ none :=
      indexTree_some.mpr readable
    obtain ⟨index,tracks⟩ := Option.ne_none_iff_exists'.mp tracked
    rw [run_recover_loaded found]
    cases changed : reviewChanged checkouts metadata s.disk.dir.baselineIndex s.disk.worktree index
        (addAll checkouts.repository.rules index s.disk.worktree.files) with
    | true =>
      obtain ⟨dir,ran,_⟩ := @run_restore_changed _ _ _ _ _ checkouts s.disk metadata _ _ _
        workspace order matched index tracks changed
      exact ⟨_,true,ran,fun _ => rfl⟩
    | false =>
      refine ⟨_,false,run_restore_unchanged matched tracks changed,fun detected => ?_⟩
      obtain ⟨marked,present,mutated⟩ := kept.marked detected
      cases found.symm.trans present
      simp [reviewChanged,mutated] at changed

theorem recovers_along (worktree : Worktree Path Content Commit Branch)
    (steps : List (SnapshotStep Path Content Commit Branch))
    (careful : Machine.Along (step checkouts workspace) (Careful workspace) (start worktree)
      steps) :
    (Machine.run (step checkouts workspace) (start worktree) steps).Recovers
      checkouts workspace := by
  have unset : Kept workspace ((start worktree).detected = true) (start worktree).disk :=
    ⟨⟨nofun,fun present => absurd rfl present⟩,nofun⟩
  exact recovers_of_kept (@Machine.along_invariant _ _ (step checkouts workspace) (start worktree)
    (Careful workspace) (fun s => Kept workspace (s.detected = true) s.disk)
    (fun _ _ careful kept => careful.step kept) unset steps careful)

end SnapshotRun

end

end Workspace
