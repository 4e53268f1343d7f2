import Mathlib.Data.List.Basic

namespace Pivot

open List

variable {α : Type} {before after before' after' : List α} {x y : α}

theorem same_split (hx : x ∉ before') (hy : y ∈ before → x ∉ after')
    (h : before ++ x :: after = before' ++ y :: after') :
    before = before' ∧ x = y ∧ after = after' := by
  rcases append_eq_append_iff.mp h with ⟨middle,rfl,tail⟩ | ⟨middle,rfl,tail⟩
  · cases middle with
    | nil =>
      obtain ⟨rfl,rfl⟩ := cons.inj tail
      exact ⟨(append_nil _).symm,rfl,rfl⟩
    | cons z rest =>
      obtain ⟨rfl,-⟩ := cons.inj tail
      exact absurd (mem_append_right _ mem_cons_self) hx
  · cases middle with
    | nil =>
      obtain ⟨rfl,rfl⟩ := cons.inj tail
      exact ⟨append_nil _,rfl,rfl⟩
    | cons z rest =>
      obtain ⟨rfl,rfl⟩ := cons.inj tail
      exact absurd (mem_append_right _ mem_cons_self)
        (hy (mem_append_right _ mem_cons_self))

theorem unique {q : α → Prop} (hbefore : ∀ z ∈ before', ¬ q z) (hafter : ∀ z ∈ after', ¬ q z)
    (hx : q x) (h : before ++ x :: after = before' ++ y :: after') :
    before = before' ∧ x = y ∧ after = after' :=
  same_split (fun listed => hbefore x listed hx) (fun _ listed => hafter x listed hx) h

theorem frontier {p : α → Prop} (hbefore : ∀ z ∈ before, p z) (hx : ¬ p x)
    (hbefore' : ∀ z ∈ before', p z) (hy : ¬ p y)
    (h : before ++ x :: after = before' ++ y :: after') :
    before = before' ∧ x = y ∧ after = after' :=
  same_split (fun listed => hx (hbefore' x listed)) (fun listed => absurd (hbefore y listed) hy) h

end Pivot
