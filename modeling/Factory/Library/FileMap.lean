import Mathlib.Data.Finset.Basic

structure FileMap (Path Content : Type) where
  lookup : Path → Option Content
  support : Finset Path
  mem_support : ∀ p, p ∈ support ↔ (lookup p).isSome

namespace FileMap

variable {Path Content : Type}

instance : CoeFun (FileMap Path Content) (fun _ => Path → Option Content) := ⟨lookup⟩

variable {m n : FileMap Path Content}

@[ext]
theorem ext (h : ∀ p, m p = n p) : m = n := by
  have lookups : m.lookup = n.lookup := funext h
  have supports : m.support = n.support := by
    refine Finset.ext ?_
    intro p
    rw [m.mem_support,n.mem_support,lookups]
  cases m
  cases n
  cases lookups
  cases supports
  rfl

def empty : FileMap Path Content where
  lookup := fun _ => none
  support := ∅
  mem_support := by simp

def restrict (keep : Path → Bool) (m : FileMap Path Content) : FileMap Path Content where
  lookup := fun p => if keep p then m p else none
  support := m.support.filter (fun p => keep p)
  mem_support := by
    intro p
    by_cases h : keep p = true <;> simp [h, m.mem_support]

section

variable {m : FileMap Path Content} {keep : Path → Bool} {p : Path}

theorem restrict_apply : m.restrict keep p = if keep p then m p else none := rfl

end

variable [DecidableEq Path]

theorem eq_iff :
    m = n ↔ ∀ p ∈ m.support ∪ n.support, m p = n p := by
  constructor
  · intro same p _
    rw [same]
  · intro h
    refine ext ?_
    intro p
    by_cases hit : p ∈ m.support ∪ n.support
    · exact h p hit
    · simp only [Finset.mem_union,mem_support,not_or,Bool.not_eq_true,
        Option.isSome_eq_false_iff,Option.isNone_iff_eq_none] at hit
      rw [hit.1,hit.2]

instance [DecidableEq Content] : DecidableEq (FileMap Path Content) :=
  fun _ _ => decidable_of_iff _ eq_iff.symm

def single (path : Path) (content : Content) : FileMap Path Content where
  lookup := fun p => if p = path then some content else none
  support := {path}
  mem_support := by
    intro p
    by_cases h : p = path <;> simp [h]

def overlay (upper lower : FileMap Path Content) : FileMap Path Content where
  lookup := fun p => (upper p).or (lower p)
  support := upper.support ∪ lower.support
  mem_support := by
    intro p
    simp [upper.mem_support, lower.mem_support]

variable {upper lower : FileMap Path Content} {p : Path}

theorem overlay_apply : overlay upper lower p = (upper p).or (lower p) := rfl

end FileMap
