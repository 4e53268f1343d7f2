import Factory.Library.Git

namespace Git

structure Change (Content : Type) where
  before : Option Content
  after : Option Content
  deriving DecidableEq

abbrev Patch (Path Content : Type) := FileMap Path (Change Content)

variable {Path Content Commit Branch : Type}

def Patch.outcome (patch : Patch Path Content) (files : FileMap Path Content) (p : Path) :
    Option Content :=
  match patch p with
  | some change => change.after
  | none => files p

variable [DecidableEq Path]

namespace Patch

def isEmpty (patch : Patch Path Content) : Bool := patch.support = ∅

def apply (patch : Patch Path Content) (files : FileMap Path Content) : FileMap Path Content where
  lookup := patch.outcome files
  support := (files.support ∪ patch.support).filter (fun p => (patch.outcome files p).isSome)
  mem_support := by
    intro p
    rw [Finset.mem_filter, Finset.mem_union, files.mem_support, patch.mem_support]
    cases found : patch p with
    | none => simp [outcome, found]
    | some change => simp

theorem apply_empty {patch : Patch Path Content} {files : FileMap Path Content}
    (empty : patch.isEmpty = true) : patch.apply files = files := by
  refine FileMap.ext ?_
  intro p
  have outside : p ∉ patch.support := by
    rw [of_decide_eq_true empty]
    exact Finset.notMem_empty p
  have absent : patch p = none := by
    simpa [patch.mem_support] using outside
  change patch.outcome files p = files p
  rw [outcome,absent]

end Patch

variable [DecidableEq Content]

def Patch.applies (patch : Patch Path Content) (files : FileMap Path Content) : Bool :=
  decide (∀ p ∈ patch.support, (patch p).map (·.before) = some (files p))

def diff (within : Path → Bool) (base tree : FileMap Path Content) : Patch Path Content where
  lookup := fun p =>
    if within p = true ∧ base p ≠ tree p then some ⟨base p, tree p⟩ else none
  support := (base.support ∪ tree.support).filter (fun p => within p = true ∧ base p ≠ tree p)
  mem_support := by
    intro p
    by_cases changed : within p = true ∧ base p ≠ tree p
    · have present : (base p).isSome ∨ (tree p).isSome := by
        by_contra absent
        simp only [not_or, Bool.not_eq_true, Option.isSome_eq_false_iff,
          Option.isNone_iff_eq_none] at absent
        exact changed.2 (absent.1.trans absent.2.symm)
      simp [changed, base.mem_support, tree.mem_support, present]
    · simp [changed]

def Worktree.statusEmpty (repo : Repository Path Content Commit)
    (w : Worktree Path Content Commit Branch) (head : Commit) : Bool :=
  w.tracked = repo.tree head ∧ addAll repo.rules w.tracked w.files = w.tracked

variable {within : Path → Bool} {base tree files : FileMap Path Content} {p : Path}

theorem apply_diff_changed (inside : within p = true) (changed : base p ≠ tree p) :
    (diff within base tree).apply files p = tree p := by
  have found : diff within base tree p = some ⟨base p,tree p⟩ := if_pos ⟨inside,changed⟩
  change (diff within base tree).outcome files p = tree p
  rw [Patch.outcome,found]

theorem apply_diff_same (same : within p = true → base p = tree p) :
    (diff within base tree).apply files p = files p := by
  have absent : diff within base tree p = none :=
    if_neg fun changed => changed.2 (same changed.1)
  change (diff within base tree).outcome files p = files p
  rw [Patch.outcome,absent]

theorem applies_diff_iff : (diff within base tree).applies files = true ↔
    ∀ p, within p = true → base p ≠ tree p → files p = base p := by
  simp only [Patch.applies,decide_eq_true_eq,FileMap.mem_support]
  refine forall_congr' ?_
  intro p
  by_cases hit : within p = true ∧ base p ≠ tree p
  · have found : diff within base tree p = some ⟨base p,tree p⟩ := if_pos hit
    simp [found,hit.1,hit.2,eq_comm]
  · have absent : diff within base tree p = none := if_neg hit
    simp only [absent,Option.isSome_none,Bool.false_eq_true,false_implies,true_iff]
    intro inside changed
    exact absurd ⟨inside,changed⟩ hit

theorem Worktree.clean_tracked {repo : Repository Path Content Commit}
    {w : Worktree Path Content Commit Branch} {head : Commit}
    (clean : w.statusEmpty repo head = true) (present : repo.tree head p ≠ none) :
    w.files p = repo.tree head p := by
  obtain ⟨tracked,added⟩ := of_decide_eq_true clean
  have same : addAll repo.rules w.tracked w.files p = w.tracked p := by rw [added]
  rw [tracked,addAll_apply,if_pos] at same
  · exact same
  · rw [Bool.or_eq_true]
    exact .inl (Option.isSome_iff_ne_none.mpr present)

end Git
