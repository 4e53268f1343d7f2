import Factory.Workspace.ResultExport

namespace Cli

open Git Workspace

inductive ApplyError (Commit : Type) where
  | digestMismatch (expected actual : String)
  | otherRepository (repository checkout : String)
  | git (command : String)
  | otherRevision (baseRevision head : Commit)
  | dirtyCheckout
  | doesNotApply
  deriving DecidableEq

def ApplyError.message {Commit : Type} (revision : Commit → String) (jobId : String) :
    ApplyError Commit → String
  | .digestMismatch expected actual =>
    "Factory result digest mismatch: expected " ++ expected ++ ", received " ++ actual
  | .otherRepository repository checkout =>
    "job " ++ jobId ++ " belongs to repository " ++ repository ++ ", not this checkout " ++
      checkout ++ "; no files were changed"
  | .git command => "git " ++ command ++ " failed"
  | .otherRevision baseRevision head =>
    "job " ++ jobId ++ " was based on " ++ revision baseRevision ++
      ", but this checkout is at " ++ revision head ++
      "; no files were changed; use `factory export " ++ jobId ++ "` to preserve the result"
  | .dirtyCheckout =>
    "this checkout has uncommitted or untracked work; no files were changed; " ++
      "commit or stash it, then run `factory apply " ++ jobId ++ "`, or use `factory export " ++
      jobId ++ "`"
  | .doesNotApply => "job " ++ jobId ++ " does not apply cleanly; no files were changed"

variable {Path Content Commit Branch : Type} [DecidableEq Path] [DecidableEq Content]

abbrev Apply (Path Content Commit Branch α : Type) :=
  Atomic (Worktree Path Content Commit Branch) (ApplyError Commit) α

def verifyPatchDigest (sha256 : Patch Path Content → String) (patch : Patch Path Content)
    (expected : String) : Apply Path Content Commit Branch Unit :=
  if sha256 patch ≠ expected then Atomic.fail (.digestMismatch expected (sha256 patch))
  else pure ()

def gitApply (patch : Patch Path Content) (check : Bool) :
    Apply Path Content Commit Branch Unit := do
  let host ← Atomic.look id
  if patch.applies host.files = false then Atomic.fail .doesNotApply
  else if check then pure ()
  else Atomic.effect (fun w => { w with files := patch.apply w.files })

variable [DecidableEq Commit]

def applyExportedResult (repository : Repository Path Content Commit)
    (sha256 : Patch Path Content → String) (repositoryId : String)
    (result : WorkspaceResult Path Content Commit) : Apply Path Content Commit Branch Bool := do
  verifyPatchDigest sha256 result.patch result.patchSha256
  if result.repositoryId ≠ repositoryId then
    Atomic.fail (.otherRepository result.repositoryId repositoryId)
  else
    let host ← Atomic.look id
    match host.head with
    | none => Atomic.fail (.git "rev-parse HEAD")
    | some head =>
      if head ≠ result.baseRevision then
        Atomic.fail (.otherRevision result.baseRevision head)
      else if host.statusEmpty repository head = false then Atomic.fail .dirtyCheckout
      else if result.patch.isEmpty then pure false
      else
        gitApply result.patch true
        gitApply result.patch false
        pure true

structure Accepts (repository : Repository Path Content Commit)
    (sha256 : Patch Path Content → String) (repositoryId : String)
    (result : WorkspaceResult Path Content Commit) (host : Worktree Path Content Commit Branch) :
    Prop where
  digest : sha256 result.patch = result.patchSha256
  identity : result.repositoryId = repositoryId
  revision : host.head = some result.baseRevision
  clean : host.statusEmpty repository result.baseRevision = true
  applies : result.patch.applies host.files = true

variable {repository : Repository Path Content Commit} {sha256 : Patch Path Content → String}
  {repositoryId : String} {result : WorkspaceResult Path Content Commit}
  {host : Worktree Path Content Commit Branch}

omit [DecidableEq Path] [DecidableEq Content] [DecidableEq Commit] in
theorem verifyPatchDigest_ok (digest : sha256 result.patch = result.patchSha256) :
    (verifyPatchDigest sha256 result.patch result.patchSha256 :
      Apply Path Content Commit Branch Unit).run host = (host, .ok ()) := by
  rw [verifyPatchDigest,if_neg (not_not.mpr digest)]
  rfl

variable {patch : Patch Path Content}

omit [DecidableEq Commit] in
theorem gitApply_ok (applies : patch.applies host.files = true) (check : Bool) :
    (gitApply patch check).run host =
      (if check then host else { host with files := patch.apply host.files }, .ok ()) := by
  rw [gitApply,Atomic.run_bind_ok (Atomic.run_look _)]
  cases check <;> simp [applies]

omit [DecidableEq Commit] in
theorem gitApply_rejected (rejected : patch.applies host.files = false) (check : Bool) :
    (gitApply patch check).run host = (host, .error .doesNotApply) := by
  rw [gitApply,Atomic.run_bind_ok (Atomic.run_look _)]
  simp [rejected]

theorem applyExportedResult_accepted
    (accepts : Accepts repository sha256 repositoryId result host) :
    (applyExportedResult repository sha256 repositoryId result).run host =
      ({ host with files := result.patch.apply host.files }, .ok (!result.patch.isEmpty)) := by
  rw [applyExportedResult,Atomic.run_bind_ok (verifyPatchDigest_ok accepts.digest),
    if_neg (not_not.mpr accepts.identity),Atomic.run_bind_ok (Atomic.run_look _)]
  obtain ⟨head,branch,index,files⟩ := host
  obtain rfl : head = some result.baseRevision := accepts.revision
  simp only [id,ne_eq,not_true_eq_false,if_false,accepts.clean,Bool.true_eq_false]
  cases empty : result.patch.isEmpty with
  | true =>
    rw [Patch.apply_empty empty]
    rfl
  | false =>
    rw [if_neg Bool.false_ne_true,Atomic.run_bind_ok (gitApply_ok accepts.applies true),
      if_pos rfl,Atomic.run_bind_ok (gitApply_ok accepts.applies false)]
    rfl

theorem applyExportedResult_refused
    (refused : ¬ Accepts repository sha256 repositoryId result host) :
    ∃ error, (applyExportedResult repository sha256 repositoryId result).run host =
      (host, .error error) := by
  by_cases digest : sha256 result.patch = result.patchSha256
  · rw [applyExportedResult,Atomic.run_bind_ok (verifyPatchDigest_ok digest)]
    by_cases identity : result.repositoryId = repositoryId
    · rw [if_neg (not_not.mpr identity),Atomic.run_bind_ok (Atomic.run_look _)]
      cases revision : host.head with
      | none => simp [revision]
      | some head =>
        by_cases based : head = result.baseRevision
        · subst based
          cases clean : host.statusEmpty repository result.baseRevision with
          | false => simp [revision,clean]
          | true =>
            have rejected : result.patch.applies host.files = false := by
              by_contra applies
              exact refused ⟨digest,identity,revision,clean,by simpa using applies⟩
            have filled : result.patch.isEmpty = false := by
              refine decide_eq_false ?_
              intro empty
              simp [Patch.applies,empty] at rejected
            refine ⟨.doesNotApply,?_⟩
            simp only [id,revision,ne_eq,not_true_eq_false,if_false,clean,
              Bool.true_eq_false,filled,Bool.false_eq_true]
            exact Atomic.run_bind_error (gitApply_rejected rejected true)
        · simp [revision,based]
    · rw [if_pos identity]
      exact ⟨_,rfl⟩
  · have mismatch : (verifyPatchDigest sha256 result.patch result.patchSha256 :
        Apply Path Content Commit Branch Unit).run host =
          (host, .error (.digestMismatch result.patchSha256 (sha256 result.patch))) := by
      rw [verifyPatchDigest,if_pos digest]
      rfl
    exact ⟨_,Atomic.run_bind_error mismatch⟩

section

variable {Path Content Commit Branch : Type} (checkouts : Checkouts Path Content Commit)
  (baseRevision : Commit) (worktree : Worktree Path Content Commit Branch)

def Recorded [DecidableEq Path] (p : Path) : Prop :=
  worktree.tracked p ≠ none ∨
    ∃ head, worktree.head = some head ∧ checkouts.repository.tree head p ≠ none

variable [DecidableEq Path]

def Published (p : Path) : Prop :=
  checkouts.artifacts p = false ∧ (Recorded checkouts worktree p ∨
    checkouts.repository.rules.ignored worktree.files p = false ∧
      (worktree.files p ≠ none ∨ checkouts.repository.tree baseRevision p ≠ none))

structure Faithful (before after : Worktree Path Content Commit Branch) : Prop where
  published : ∀ p, Published checkouts baseRevision worktree p → after.files p = worktree.files p
  others : ∀ p, ¬ Published checkouts baseRevision worktree p → after.files p = before.files p
  checkout : after = { before with files := after.files }

structure Transferable (host : Worktree Path Content Commit Branch) : Prop where
  recorded : ∀ p, checkouts.artifacts p = false → checkouts.repository.tree baseRevision p = none →
    Recorded checkouts worktree p →
    checkouts.repository.rules.ignored worktree.files p = true ∨ worktree.files p = none →
    host.files p = worktree.files p
  released : ∀ p, checkouts.artifacts p = false →
    checkouts.repository.tree baseRevision p ≠ none → ¬ Recorded checkouts worktree p →
    checkouts.repository.rules.ignored worktree.files p = true →
    worktree.files p = checkouts.repository.tree baseRevision p

def Unobstructed (host : Worktree Path Content Commit Branch) : Prop :=
  ∀ p, checkouts.artifacts p = false → checkouts.repository.tree baseRevision p = none →
    checkouts.repository.rules.ignored worktree.files p = false → worktree.files p ≠ none →
    host.files p = none

end

variable {Path Content Commit Branch : Type} [DecidableEq Path] [DecidableEq Content]
  {checkouts : Checkouts Path Content Commit} {baseRevision : Commit}
  {worktree host : Worktree Path Content Commit Branch} {hostRules : IgnoreRules Path Content}
  {p : Path}

theorem applied_reserved (reserved : checkouts.artifacts p = true) :
    (resultPatch checkouts baseRevision worktree.files).apply host.files p = host.files p := by
  refine apply_diff_same ?_
  intro inside
  rw [reserved] at inside
  cases inside

theorem applied_new (outside : checkouts.artifacts p = false)
    (unbased : checkouts.repository.tree baseRevision p = none)
    (visible : checkouts.repository.rules.ignored worktree.files p = false)
    (present : worktree.files p ≠ none) :
    (resultPatch checkouts baseRevision worktree.files).apply host.files p = worktree.files p := by
  have exported : resultTree checkouts baseRevision worktree.files p = worktree.files p := by
    rw [resultTree_new unbased,visible]
    rfl
  rw [← exported]
  refine apply_diff_changed ?_ ?_
  · rw [outside]
    rfl
  · rw [exported,unbased]
    exact present.symm

theorem applied_dropped (unbased : checkouts.repository.tree baseRevision p = none)
    (dropped : checkouts.repository.rules.ignored worktree.files p = true ∨
      worktree.files p = none) :
    (resultPatch checkouts baseRevision worktree.files).apply host.files p = host.files p := by
  refine apply_diff_same ?_
  intro _
  rw [unbased,resultTree_new unbased]
  rcases dropped with ignored | absent
  · rw [ignored]
    rfl
  · rw [absent]
    split <;> rfl

section CleanHost

variable (clean : host.statusEmpty ⟨hostRules, checkouts.repository.tree⟩ baseRevision = true)

include clean

theorem applied_based (outside : checkouts.artifacts p = false)
    (based : checkouts.repository.tree baseRevision p ≠ none) :
    (resultPatch checkouts baseRevision worktree.files).apply host.files p = worktree.files p := by
  have exported : resultTree checkouts baseRevision worktree.files p = worktree.files p :=
    resultTree_based based
  by_cases changed : checkouts.repository.tree baseRevision p = worktree.files p
  · have kept : (resultPatch checkouts baseRevision worktree.files).apply host.files p =
        host.files p := apply_diff_same fun _ => changed.trans exported.symm
    rw [kept,Worktree.clean_tracked clean based]
    exact changed
  · rw [← exported]
    refine apply_diff_changed ?_ ?_
    · rw [outside]
      rfl
    · rw [exported]
      exact changed

theorem faithful_iff_transferable :
    Faithful checkouts baseRevision worktree host
        { host with
          files := (resultPatch checkouts baseRevision worktree.files).apply host.files } ↔
      Transferable checkouts baseRevision worktree host := by
  constructor
  · intro faithful
    refine ⟨?_,?_⟩
    · intro p outside unbased recorded dropped
      have transferred := faithful.published p ⟨outside,.inl recorded⟩
      rwa [applied_dropped unbased dropped] at transferred
    · intro p outside based unrecorded ignored
      have kept := faithful.others p (by
        rintro ⟨_,recorded | ⟨visible,_⟩⟩
        · exact unrecorded recorded
        · rw [ignored] at visible
          cases visible)
      rw [applied_based clean outside based,Worktree.clean_tracked clean based] at kept
      exact kept
  · intro transferable
    refine ⟨?_,?_,rfl⟩
    · rintro p ⟨outside,published⟩
      by_cases unbased : checkouts.repository.tree baseRevision p = none
      · by_cases dropped : checkouts.repository.rules.ignored worktree.files p = true ∨
            worktree.files p = none
        · rcases published with recorded | ⟨visible,present | based⟩
          · rw [applied_dropped unbased dropped]
            exact transferable.recorded p outside unbased recorded dropped
          · exact applied_new outside unbased visible present
          · exact absurd unbased based
        · rw [not_or,Bool.not_eq_true] at dropped
          exact applied_new outside unbased dropped.1 dropped.2
      · exact applied_based clean outside unbased
    · intro p unpublished
      cases outside : checkouts.artifacts p with
      | true => exact applied_reserved outside
      | false =>
        by_cases unbased : checkouts.repository.tree baseRevision p = none
        · refine applied_dropped unbased ?_
          by_contra shown
          rw [not_or,Bool.not_eq_true] at shown
          exact unpublished ⟨outside,.inr ⟨shown.1,.inl shown.2⟩⟩
        · have unrecorded : ¬ Recorded checkouts worktree p :=
            fun recorded => unpublished ⟨outside,.inl recorded⟩
          have ignored : checkouts.repository.rules.ignored worktree.files p = true := by
            by_contra visible
            exact unpublished ⟨outside,.inr ⟨by simpa using visible,.inr unbased⟩⟩
          rw [applied_based clean outside unbased,Worktree.clean_tracked clean unbased]
          exact transferable.released p outside unbased unrecorded ignored

theorem applies_iff_unobstructed :
    (resultPatch checkouts baseRevision worktree.files).applies host.files = true ↔
      Unobstructed checkouts baseRevision worktree host := by
  rw [resultPatch,applies_diff_iff]
  constructor
  · intro applies p outside unbased visible present
    rw [applies p (by rw [outside]; rfl) ?_,unbased]
    rw [unbased,resultTree_new unbased,visible]
    exact present.symm
  · intro unobstructed p inside changed
    by_cases unbased : checkouts.repository.tree baseRevision p = none
    · rw [unbased,resultTree_new unbased] at changed
      rw [unbased]
      cases visible : checkouts.repository.rules.ignored worktree.files p with
      | true =>
        rw [visible] at changed
        exact absurd rfl changed
      | false =>
        rw [visible] at changed
        exact unobstructed p (by simpa using inside) unbased visible changed.symm
    · have kept := Worktree.clean_tracked clean unbased
      exact kept

end CleanHost

variable [DecidableEq Commit]

def Exchanged (checkouts : Checkouts Path Content Commit)
    (workspace : WorkspaceRecord Commit Branch) (repositoryId : String)
    (sha256 : Patch Path Content → String) (hostRules : IgnoreRules Path Content)
    (disk : Disk Path Content Commit Branch) (host : Worktree Path Content Commit Branch) : Prop :=
  ∃ result, (exportResult checkouts workspace repositoryId sha256 .succeeded).run disk =
      (disk, .ok result) ∧
    (result.patch.applies host.files = true →
      ∃ after changed,
        (applyExportedResult ⟨hostRules, checkouts.repository.tree⟩ sha256 repositoryId
          result).run host = (after, .ok changed) ∧
        Faithful checkouts workspace.baseRevision disk.worktree host after)

structure Exportable (checkouts : Checkouts Path Content Commit) (baseRevision : Commit)
    (worktree host : Worktree Path Content Commit Branch) : Prop where
  born : worktree.head ≠ none
  unreserved : Unreserved checkouts.artifacts (checkouts.repository.tree baseRevision)
  transferable : Unobstructed checkouts baseRevision worktree host →
    Transferable checkouts baseRevision worktree host

theorem result_transfer (checkouts : Checkouts Path Content Commit)
    (workspace : WorkspaceRecord Commit Branch) (repositoryId : String)
    (sha256 : Patch Path Content → String) (hostRules : IgnoreRules Path Content)
    (disk : Disk Path Content Commit Branch) (host : Worktree Path Content Commit Branch)
    (index : Unreserved checkouts.artifacts disk.worktree.tracked)
    (committed : ∀ head, disk.worktree.head = some head →
      Unreserved checkouts.artifacts (checkouts.repository.tree head))
    (revision : host.head = some workspace.baseRevision)
    (clean : host.statusEmpty ⟨hostRules, checkouts.repository.tree⟩ workspace.baseRevision =
      true) :
    (Exchanged checkouts workspace repositoryId sha256 hostRules disk host ↔
      Exportable checkouts workspace.baseRevision disk.worktree host) ∧
    ∀ (repository : Repository Path Content Commit) (checkoutId : String)
      (result : WorkspaceResult Path Content Commit) (target : Worktree Path Content Commit Branch),
      ¬ Accepts repository sha256 checkoutId result target →
        ∃ error, (applyExportedResult repository sha256 checkoutId result).run target =
          (target, .error error) := by
  refine ⟨?_,fun _ _ _ _ refused => applyExportedResult_refused refused⟩
  constructor
  · rintro ⟨result,exported,applied⟩
    obtain ⟨born,base⟩ := exportResult_ok exported
    obtain ⟨head,attached⟩ := Option.ne_none_iff_exists'.mp born
    refine ⟨born,base,?_⟩
    intro unobstructed
    obtain ⟨-,returned⟩ := Prod.mk.inj
      ((exportResult_run attached index (committed head attached) base).symm.trans exported)
    obtain rfl := Except.ok.inj returned
    have applies := (applies_iff_unobstructed clean).mpr unobstructed
    obtain ⟨after,changed,ran,faithful⟩ := applied applies
    obtain ⟨rfl,-⟩ := Prod.mk.inj (ran.symm.trans
      (applyExportedResult_accepted ⟨rfl,rfl,revision,clean,applies⟩))
    exact (faithful_iff_transferable clean).mp faithful
  · rintro ⟨born,base,transferable⟩
    obtain ⟨head,attached⟩ := Option.ne_none_iff_exists'.mp born
    refine ⟨_,exportResult_run attached index (committed head attached) base,?_⟩
    intro applies
    refine ⟨_,_,applyExportedResult_accepted ⟨rfl,rfl,revision,clean,applies⟩,?_⟩
    exact (faithful_iff_transferable clean).mpr
      (transferable ((applies_iff_unobstructed clean).mp applies))

def forcedAdd : Checkouts Nat Nat Nat where
  repository :=
    { rules :=
        { ignoreFile := fun p => p == 0
          excluded := fun _ => false
          selects := fun files p => p == 1 && files 0 == some 7 }
      tree := fun commit =>
        if commit = 0 then .single 0 7 else (FileMap.single 0 7).overlay (.single 1 5) }
  artifacts := fun p => p == 2

def forcedWorkspace : WorkspaceRecord Nat Nat := ⟨"job", "/worktrees/job", 4, 0⟩

def baseCheckout : Worktree Nat Nat Nat Nat :=
  ⟨some 0, some 9, some (.single 0 7), .single 0 7⟩

def newFile : Disk Nat Nat Nat Nat :=
  ⟨.absent, { baseCheckout with files := (FileMap.single 0 7).overlay (.single 3 9) }⟩

def committedFile : Disk Nat Nat Nat Nat :=
  ⟨.absent, ⟨some 1, some 4, some ((FileMap.single 0 7).overlay (.single 1 5)),
    (FileMap.single 0 7).overlay (.single 1 5)⟩⟩

theorem forcedAdd_unreserved (commit : Nat) :
    Unreserved forcedAdd.artifacts (forcedAdd.repository.tree commit) := by
  intro p reserved
  obtain rfl : p = 2 := by simpa [forcedAdd] using reserved
  simp only [forcedAdd]
  split <;> rfl

theorem result_transfer_new_file :
    Exchanged forcedAdd forcedWorkspace "local:job" (fun _ => "digest") forcedAdd.repository.rules
      newFile baseCheckout := by
  refine (result_transfer forcedAdd forcedWorkspace "local:job" (fun _ => "digest")
    forcedAdd.repository.rules newFile baseCheckout (forcedAdd_unreserved 0)
    (fun head _ => forcedAdd_unreserved head) rfl (by decide)).1.mpr ?_
  refine ⟨nofun,forcedAdd_unreserved 0,fun _ => ⟨?_,?_⟩⟩
  · rintro p - unbased (tracked | ⟨head,attached,tracked⟩)
    · exact absurd unbased tracked
    · obtain rfl : 0 = head := Option.some.inj attached
      exact absurd unbased tracked
  · intro p _ based unrecorded
    exact absurd (.inl based) unrecorded

theorem forced_file_not_transferred :
    Unreserved forcedAdd.artifacts committedFile.worktree.tracked ∧
    Unreserved forcedAdd.artifacts (forcedAdd.repository.tree 1) ∧
    committedFile.worktree.head = some 1 ∧
    baseCheckout.head = some forcedWorkspace.baseRevision ∧
    baseCheckout.statusEmpty forcedAdd.repository forcedWorkspace.baseRevision = true ∧
    Published forcedAdd 0 committedFile.worktree 1 ∧
    ¬ Exchanged forcedAdd forcedWorkspace "local:job" (fun _ => "digest")
      forcedAdd.repository.rules committedFile baseCheckout := by
  have published : Published forcedAdd 0 committedFile.worktree 1 := ⟨rfl,.inl (.inl nofun)⟩
  refine ⟨forcedAdd_unreserved 1,forcedAdd_unreserved 1,rfl,rfl,by decide,published,?_⟩
  rintro ⟨result,exported,applied⟩
  obtain ⟨-,returned⟩ := Prod.mk.inj
    ((exportResult_run rfl (forcedAdd_unreserved 1) (forcedAdd_unreserved 1)
      (forcedAdd_unreserved 0)).symm.trans exported)
  obtain rfl := Except.ok.inj returned
  obtain ⟨after,changed,ran,faithful⟩ := applied (by decide)
  have missing : after.files 1 = none :=
    (congrArg (fun outcome => outcome.1.files 1) ran).symm
  have transferred : after.files 1 = some 5 := faithful.published 1 published
  rw [missing] at transferred
  cases transferred

end Cli
