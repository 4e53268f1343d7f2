import Mathlib.Data.List.Sort

variable {α β : Type} {extra other : α → Prop} {xs ys : List α}

inductive Woven (extra : α → Prop) : List α → List α → Prop where
  | nil : Woven extra [] []
  | keep (x : α) {xs ys : List α} (rest : Woven extra xs ys) : Woven extra (x :: xs) (x :: ys)
  | insert {x : α} (added : extra x) {xs ys : List α} (rest : Woven extra xs ys) :
      Woven extra xs (x :: ys)

open List

namespace Woven

theorem filter (h : Woven extra xs ys) {p : α → Bool} (blind : ∀ x, extra x → p x = false) :
    ys.filter p = xs.filter p := by
  induction h with
  | nil => rfl
  | keep x _ ih => rw [filter_cons,filter_cons,ih]
  | insert added _ ih => rw [filter_cons,blind _ added,if_neg Bool.false_ne_true,ih]

theorem filterMap (h : Woven extra xs ys) {f : α → Option β} (blind : ∀ x, extra x → f x = none) :
    ys.filterMap f = xs.filterMap f := by
  induction h with
  | nil => rfl
  | keep x _ ih => rw [filterMap_cons,filterMap_cons,ih]
  | insert added _ ih => rw [filterMap_cons_none (blind _ added),ih]

theorem refl (xs : List α) : Woven extra xs xs := by
  induction xs with
  | nil => exact .nil
  | cons x _ ih => exact .keep x ih

theorem of_filter (p : α → Bool) (xs : List α) : Woven (fun x => p x = false) (xs.filter p) xs := by
  induction xs with
  | nil => exact .nil
  | cons x _ ih =>
    cases hit : p x with
    | true =>
      rw [filter_cons_of_pos hit]
      exact .keep x ih
    | false =>
      rw [filter_cons_of_neg (ne_true_of_eq_false hit)]
      refine .insert ?_ ih
      exact hit

end Woven

section Sorting

variable (r : α → α → Prop) [DecidableRel r]

theorem orderedInsert_append_of_forall {x : α} (xs : List α) {ys : List α}
    (below : ∀ y ∈ ys, r x y) :
    (xs ++ ys).orderedInsert r x = xs.orderedInsert r x ++ ys := by
  induction xs with
  | nil =>
    cases ys with
    | nil => rfl
    | cons y rest => exact orderedInsert_cons_of_le r rest (below y mem_cons_self)
  | cons z rest ih =>
    by_cases first : r x z
    · rw [cons_append,orderedInsert_cons_of_le r _ first,
        orderedInsert_cons_of_le r _ first,cons_append,cons_append]
    · rw [cons_append,orderedInsert_of_not_le r _ first,
        orderedInsert_of_not_le r _ first,ih,cons_append]

theorem insertionSort_append_of_forall {xs ys : List α} (below : ∀ x ∈ xs, ∀ y ∈ ys, r x y) :
    (xs ++ ys).insertionSort r = xs.insertionSort r ++ ys.insertionSort r := by
  induction xs with
  | nil => rfl
  | cons x rest ih =>
    rw [cons_append,insertionSort_cons,insertionSort_cons,
      ih fun z listed => below z (mem_cons_of_mem _ listed)]
    refine orderedInsert_append_of_forall r _ fun y listed => ?_
    exact below x mem_cons_self y ((mem_insertionSort r).mp listed)

end Sorting
