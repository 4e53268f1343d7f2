import Factory.Library.FileMap

namespace Git

structure IgnoreRules (Path Content : Type) where
  ignoreFile : Path → Bool
  excluded : Path → Bool
  selects : FileMap Path Content → Path → Bool

structure Repository (Path Content Commit : Type) where
  rules : IgnoreRules Path Content
  tree : Commit → FileMap Path Content

structure Worktree (Path Content Commit Branch : Type) where
  head : Option Commit
  branch : Option Branch
  index : Option (FileMap Path Content)
  files : FileMap Path Content
  deriving DecidableEq

variable {Path Content Commit Branch : Type}

def IgnoreRules.ignored (rules : IgnoreRules Path Content) (files : FileMap Path Content)
    (p : Path) : Bool :=
  rules.excluded p || rules.selects (files.restrict rules.ignoreFile) p

theorem IgnoreRules.ignored_congr (rules : IgnoreRules Path Content)
    {files files' : FileMap Path Content}
    (same : ∀ p, rules.ignoreFile p = true → files p = files' p) (p : Path) :
    rules.ignored files p = rules.ignored files' p := by
  have restricted : files.restrict rules.ignoreFile = files'.restrict rules.ignoreFile := by
    refine FileMap.ext ?_
    intro q
    rw [FileMap.restrict_apply,FileMap.restrict_apply]
    split
    · next rule => exact same q rule
    · rfl
  rw [ignored,ignored,restricted]

def addAll (rules : IgnoreRules Path Content) (index files : FileMap Path Content) :
    FileMap Path Content :=
  files.restrict (fun p => (index p).isSome || !rules.ignored files p)

section

variable {rules : IgnoreRules Path Content} {index files : FileMap Path Content} {p : Path}

theorem addAll_apply : addAll rules index files p =
    if (index p).isSome || !rules.ignored files p then files p else none := rfl

theorem addAll_eq_none (unlisted : addAll rules index files p = none) (present : files p ≠ none) :
    index p = none ∧ rules.ignored files p = true := by
  rw [addAll_apply] at unlisted
  split at unlisted
  · exact absurd unlisted present
  · next hidden => simpa using hidden

end

variable [DecidableEq Path]

def materialize (tree index files : FileMap Path Content) : FileMap Path Content :=
  tree.overlay (files.restrict (fun p => (index p).isNone))

namespace Worktree

def tracked (w : Worktree Path Content Commit Branch) : FileMap Path Content :=
  w.index.getD .empty

def checkout (repo : Repository Path Content Commit) (branch : Branch) (commit : Commit)
    (w : Worktree Path Content Commit Branch) : Worktree Path Content Commit Branch :=
  ⟨some commit, some branch, some (repo.tree commit),
    materialize (repo.tree commit) w.tracked w.files⟩

def resetHard (repo : Repository Path Content Commit) (commit : Commit)
    (w : Worktree Path Content Commit Branch) : Worktree Path Content Commit Branch :=
  { w with
    head := some commit
    index := some (repo.tree commit)
    files := materialize (repo.tree commit) w.tracked w.files }

def clean (repo : Repository Path Content Commit) (w : Worktree Path Content Commit Branch) :
    Worktree Path Content Commit Branch :=
  { w with
    files := w.files.restrict (fun p =>
      (w.tracked p).isSome || repo.rules.ignored w.files p) }

def readTree (tree : FileMap Path Content) (w : Worktree Path Content Commit Branch) :
    Worktree Path Content Commit Branch :=
  { w with index := some tree, files := materialize tree w.tracked w.files }

end Worktree

variable {tree index files : FileMap Path Content} {p : Path}

theorem materialize_apply : materialize tree index files p =
    (tree p).or (if (index p).isNone then files p else none) := rfl

theorem materialize_again :
    materialize tree tree (materialize tree index files) = materialize tree index files := by
  refine FileMap.ext ?_
  intro p
  simp only [materialize_apply]
  cases tree p <;> simp

end Git
