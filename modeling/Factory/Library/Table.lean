import Mathlib.Data.List.MinMax
import Mathlib.Data.List.Nodup
import Mathlib.Data.Prod.Lex

namespace Table

open List

variable {α κ β : Type}

def updateWhere (p : α → Bool) (f : α → α) (rows : List α) : List α :=
  rows.map (fun r => if p r then f r else r)

def firstBy [LinearOrder β] (key : α → β) (rows : List α) : Option α := rows.argmin key

def lastBy [LinearOrder β] (key : α → β) (rows : List α) : Option α := rows.argmax key

def maxByKey (key : α → Nat) (rows : List α) : Option α :=
  rows.foldl (fun best row => if best.all (fun b => key b ≤ key row) then some row else best) none

theorem maxByKey_concat (key : α → Nat) (rows : List α) (row : α) :
    maxByKey key (rows ++ [row]) =
      if (maxByKey key rows).all (fun best => key best ≤ key row) then some row
      else maxByKey key rows := by
  rw [maxByKey,foldl_append]
  rfl

theorem maxByKey_mem {key : α → Nat} {rows : List α} {x : α} (h : maxByKey key rows = some x) :
    x ∈ rows := by
  induction rows using reverseRecOn with
  | nil => contradiction
  | append_singleton rows row ih =>
    rw [maxByKey_concat] at h
    split at h
    · obtain rfl := Option.some.inj h
      exact mem_append_right _ mem_cons_self
    · exact mem_append_left _ (ih h)

theorem maxByKey_isSome {key : α → Nat} {rows : List α} :
    (maxByKey key rows).isSome = true ↔ rows ≠ [] := by
  induction rows using reverseRecOn with
  | nil => exact ⟨fun h => absurd h Bool.false_ne_true,fun h => absurd rfl h⟩
  | append_singleton rows row ih =>
    refine ⟨fun _ => by simp,fun _ => ?_⟩
    rw [maxByKey_concat]
    split
    · rfl
    · next kept =>
      cases found : maxByKey key rows with
      | none =>
        rw [found] at kept
        exact absurd rfl kept
      | some best => rfl

theorem maxByKey_le {key : α → Nat} {rows : List α} {x best : α}
    (h : maxByKey key rows = some best) (member : x ∈ rows) : key x ≤ key best := by
  induction rows using reverseRecOn generalizing best with
  | nil => cases member
  | append_singleton rows row ih =>
    rw [maxByKey_concat] at h
    rcases mem_append.mp member with old | new
    · obtain ⟨previous,found⟩ := Option.isSome_iff_exists.mp
        (maxByKey_isSome.mpr (ne_nil_of_mem old) : (maxByKey key rows).isSome = true)
      have bound := ih found old
      rw [found] at h
      split at h
      · next larger =>
        cases h
        exact bound.trans (by simpa using larger)
      · cases h
        exact bound
    · cases mem_singleton.mp new
      split at h
      · cases h
        exact le_rfl
      · next smaller =>
        rw [h] at smaller
        simp only [Option.all_some,decide_eq_true_eq,not_le] at smaller
        exact smaller.le

theorem maxByKey_eq_getLast {key : α → Nat} {rows candidates : List α}
    (sorted : rows.Pairwise fun a b => key a < key b) (same : ∀ x, x ∈ candidates ↔ x ∈ rows) :
    maxByKey key candidates = rows.getLast? := by
  cases rows using reverseRecOn with
  | nil =>
    have empty : candidates = [] := eq_nil_iff_forall_not_mem.mpr fun x member =>
      absurd ((same x).mp member) not_mem_nil
    rw [empty]
    rfl
  | append_singleton rows last =>
    have member : last ∈ candidates :=
      (same last).mpr (mem_append_right _ mem_cons_self)
    obtain ⟨best,found⟩ := Option.isSome_iff_exists.mp
      (maxByKey_isSome.mpr (ne_nil_of_mem member) :
        (maxByKey key candidates).isSome = true)
    rw [found,getLast?_concat]
    rcases mem_append.mp ((same best).mp (maxByKey_mem found)) with old | new
    · have less := (pairwise_append.mp sorted).2.2 best old last mem_cons_self
      exact absurd (maxByKey_le found member) (Nat.not_le.mpr less)
    · rw [mem_singleton.mp new]

variable {key : α → κ}

theorem nodup_concat {rows : List α} {r : α} (nodup : (rows.map key).Nodup)
    (fresh : ∀ x ∈ rows, key x ≠ key r) : ((rows ++ [r]).map key).Nodup := by
  simp only [map_append,map_cons,map_nil]
  refine nodup_append.mpr ⟨nodup,nodup_singleton _,?_⟩
  intro x hx y hy
  obtain ⟨row,hrow,rfl⟩ := mem_map.mp hx
  rw [mem_singleton.mp hy]
  exact fresh row hrow

theorem foldl_max_eq (base : Nat) (values : List Nat) :
    values.foldl max base = max base (values.foldl max 0) := by
  induction values generalizing base with
  | nil => simp
  | cons value rest ih =>
    simp only [foldl_cons]
    rw [ih (max base value),ih (max 0 value)]
    omega

theorem le_foldl_max {value : Nat} {values : List Nat} (h : value ∈ values) :
    value ≤ values.foldl max 0 := by
  obtain ⟨before,after,rfl⟩ := append_of_mem h
  rw [foldl_append,foldl_cons,foldl_max_eq]
  omega

variable {p q : α → Bool} {f : α → α} {rows before after : List α} {x : α}

theorem updateWhere_fixed (h : ∀ x ∈ rows, p x = true → f x = x) :
    updateWhere p f rows = rows := by
  conv_rhs => rw [← map_id rows]
  refine map_congr_left ?_
  intro x hx
  split
  · next hit => exact h x hx hit
  · rfl

theorem updateWhere_none (h : ∀ x ∈ rows, p x = false) : updateWhere p f rows = rows := by
  refine updateWhere_fixed ?_
  intro x hx hit
  rw [h x hx] at hit
  cases hit

theorem updateWhere_id (p : α → Bool) (rows : List α) : updateWhere p id rows = rows := by
  simp [updateWhere]

theorem updateWhere_append : updateWhere p f (before ++ after) =
    updateWhere p f before ++ updateWhere p f after :=
  map_append ..

theorem updateWhere_split (hx : p x = true) (hbefore : ∀ y ∈ before, p y = false)
    (hafter : ∀ y ∈ after, p y = false) :
    updateWhere p f (before ++ x :: after) = before ++ f x :: after := by
  have hcons : updateWhere p f (x :: after) = f x :: updateWhere p f after := by
    simp [updateWhere,hx]
  rw [updateWhere_append,hcons,updateWhere_none hbefore,updateWhere_none hafter]

theorem filter_updateWhere (h : ∀ x, q (f x) = q x) :
    (updateWhere p f rows).filter q = updateWhere p f (rows.filter q) := by
  induction rows with
  | nil => rfl
  | cons x rest ih =>
    have hq : q (if p x then f x else x) = q x := by
      split
      · exact h x
      · rfl
    have hcons : updateWhere p f (x :: rest) =
        (if p x then f x else x) :: updateWhere p f rest := rfl
    rw [hcons,filter_cons,filter_cons,hq,ih]
    by_cases hx : q x = true
    · simp [hx,updateWhere]
    · simp [hx]

theorem filter_updateWhere_other (h : ∀ x, q (f x) = q x)
    (miss : ∀ x ∈ rows, p x = true → q x = false) :
    (updateWhere p f rows).filter q = rows.filter q := by
  rw [filter_updateWhere h]
  refine updateWhere_none ?_
  intro x hx
  obtain ⟨mem,kept⟩ := mem_filter.mp hx
  by_contra hit
  rw [miss x mem (by simpa using hit)] at kept
  cases kept

theorem map_updateWhere {g : α → β} (h : ∀ x ∈ rows, p x = true → g (f x) = g x) :
    (updateWhere p f rows).map g = rows.map g := by
  rw [updateWhere,map_map]
  refine map_congr_left ?_
  intro x hx
  by_cases hp : p x = true
  · simpa [hp] using h x hx hp
  · simp [hp]

theorem nodup_updateWhere (h : ∀ x, key (f x) = key x) (nodup : (rows.map key).Nodup) :
    ((updateWhere p f rows).map key).Nodup := by
  rw [map_updateWhere fun x _ _ => h x]
  exact nodup

theorem mem_updateWhere {y : α} :
    y ∈ updateWhere p f rows ↔ ∃ x ∈ rows, (if p x then f x else x) = y :=
  mem_map

theorem find_map_key (key : α → κ) [DecidableEq κ] {k : κ} {g : α → α}
    (h : ∀ x, key (g x) = key x) :
    (rows.map g).find? (fun x => key x = k) = (rows.find? (fun x => key x = k)).map g := by
  rw [find?_map]
  congr 2
  funext x
  simp only [Function.comp,h]

theorem find_updateWhere (key : α → κ) [DecidableEq κ] {k : κ} (h : ∀ x, key (f x) = key x) :
    (updateWhere (fun x => key x = k) f rows).find? (fun x => key x = k) =
      (rows.find? (fun x => key x = k)).map f := by
  have update := @find_map_key _ _ rows key _ k (fun x => if key x = k then f x else x) (by
    intro x
    split
    · exact h x
    · rfl)
  simp only [updateWhere,decide_eq_true_eq]
  rw [update]
  cases found : rows.find? (fun x => key x = k) with
  | none => rfl
  | some x =>
    have hit := find?_some found
    rw [Option.map_some,Option.map_some,if_pos (of_decide_eq_true hit)]

theorem find_key (key : α → κ) [DecidableEq κ] (nodup : (rows.map key).Nodup) (hx : x ∈ rows) :
    rows.find? (fun y => key y = key x) = some x := by
  cases hfind : rows.find? (fun y => key y = key x) with
  | none =>
    have hnone := find?_eq_none.mp hfind x hx
    simp at hnone
  | some y =>
    have hy := mem_of_find?_eq_some hfind
    have hsame := find?_some hfind
    rw [inj_on_of_nodup_map nodup hy hx (of_decide_eq_true hsame)]

theorem split_key (nodup : (rows.map key).Nodup) (hx : x ∈ rows) :
    ∃ before after, rows = before ++ x :: after ∧ (∀ y ∈ before, key y ≠ key x) ∧
      ∀ y ∈ after, key y ≠ key x := by
  obtain ⟨before,after,rfl⟩ := append_of_mem hx
  rw [map_append,map_cons,nodup_append] at nodup
  obtain ⟨_,htail,hdisjoint⟩ := nodup
  refine ⟨before,after,rfl,?_,?_⟩
  · intro y hy
    exact hdisjoint _ (mem_map_of_mem hy) _ mem_cons_self
  · intro y hy hsame
    exact (nodup_cons.mp htail).1 (hsame ▸ mem_map_of_mem hy)

theorem filter_key [DecidableEq κ] (nodup : (rows.map key).Nodup) (hx : x ∈ rows) :
    rows.filter (fun y => key y = key x) = [x] := by
  obtain ⟨before,after,rfl,left,right⟩ := split_key nodup hx
  rw [filter_append,filter_cons_of_pos (by simp),
    filter_eq_nil_iff.mpr (fun y hit => by simpa using left y hit),
    filter_eq_nil_iff.mpr (fun y hit => by simpa using right y hit)]
  rfl

theorem find_narrow {rows : List α} {x : α} (found : rows.find? p = some x) (hit : q x = true) :
    rows.find? (fun y => p y ∧ q y) = some x := by
  induction rows with
  | nil => cases found
  | cons y rest ih =>
    by_cases first : p y = true
    · rw [find?_cons_of_pos first] at found
      cases found
      exact find?_cons_of_pos (decide_eq_true ⟨first,hit⟩)
    · rw [find?_cons_of_neg first] at found
      rw [find?_cons_of_neg (by simp [first])]
      exact ih found

end Table
