import Mathlib.Data.List.SplitBy

namespace Runs

open List

variable {α κ : Type} [DecidableEq κ] {key : α → κ}

def sameKey (key : α → κ) (a b : α) : Bool := key a = key b

def runs (key : α → κ) (xs : List α) : List (List α) := xs.splitBy (sameKey key)

variable {xs : List α}

theorem runs_eq_iff {groups : List (List α)} :
    runs key xs = groups ↔ xs = groups.flatten ∧ [] ∉ groups ∧
      (∀ run ∈ groups, run.IsChain (fun x y => sameKey key x y = true)) ∧
      groups.IsChain (fun a b => ∃ ha hb, sameKey key (a.getLast ha) (b.head hb) = false) :=
  splitBy_eq_iff

theorem runs_cons_new {x : α}
    (different : ∀ y rest others, runs key xs = (y :: rest) :: others → key x ≠ key y) :
    runs key (x :: xs) = [x] :: runs key xs := by
  obtain ⟨flat,nonempty,chains,breaks⟩ := runs_eq_iff.mp (Eq.refl (runs key xs))
  refine runs_eq_iff.mpr ⟨?_,?_,?_,?_⟩
  · rw [flatten_cons,← flat]
    rfl
  · simpa using nonempty
  · intro run listed
    rcases mem_cons.mp listed with rfl | later
    · exact isChain_singleton x
    · exact chains run later
  · cases split : runs key xs with
    | nil => exact isChain_singleton _
    | cons run others =>
      rw [split] at breaks nonempty
      cases run with
      | nil => exact absurd mem_cons_self nonempty
      | cons y rest =>
        refine isChain_cons_cons.mpr ⟨⟨by simp,by simp,?_⟩,breaks⟩
        exact decide_eq_false (different y rest others split)

theorem runs_cons_same {x y : α} {rest : List α} {others : List (List α)}
    (split : runs key xs = (y :: rest) :: others) (same : key x = key y) :
    runs key (x :: xs) = (x :: y :: rest) :: others := by
  obtain ⟨flat,nonempty,chains,breaks⟩ := runs_eq_iff.mp split
  refine runs_eq_iff.mpr ⟨?_,?_,?_,?_⟩
  · rw [flat]
    rfl
  · simp only [mem_cons,not_or] at nonempty ⊢
    exact ⟨by simp,nonempty.2⟩
  · intro run listed
    rcases mem_cons.mp listed with rfl | later
    · refine isChain_cons_cons.mpr ⟨by simpa [sameKey] using same,?_⟩
      exact chains _ mem_cons_self
    · exact chains run (mem_cons_of_mem _ later)
  · cases others with
    | nil => exact isChain_singleton _
    | cons next later =>
      obtain ⟨⟨_,second,apart⟩,breaks⟩ := isChain_cons_cons.mp breaks
      refine isChain_cons_cons.mpr ⟨⟨by simp,second,?_⟩,breaks⟩
      rwa [getLast_cons (cons_ne_nil y rest)]

theorem runs_head (k : κ) (xs : List α) :
    ∃ rest others, ∀ x, key x = k → runs key (x :: xs) = (x :: rest) :: others := by
  cases split : runs key xs with
  | nil =>
    refine ⟨[],[],fun x _ => ?_⟩
    rw [runs_cons_new fun y rest others found => ?_,split]
    rw [split] at found
    cases found
  | cons run others =>
    cases run with
    | nil =>
      have nonempty := (runs_eq_iff.mp split).2.1
      exact absurd mem_cons_self nonempty
    | cons y rest =>
      by_cases same : k = key y
      · exact ⟨y :: rest,others,fun x own => runs_cons_same split (own.trans same)⟩
      · refine ⟨[],(y :: rest) :: others,fun x own => ?_⟩
        rw [runs_cons_new fun z tail later found => ?_,split]
        rw [split] at found
        cases found
        rw [own]
        exact same

theorem mem_runs_key {run : List α} {x y : α} (listed : run ∈ runs key xs) (first : x ∈ run)
    (second : y ∈ run) : key x = key y := by
  have chain := isChain_of_mem_splitBy listed
  have pairwise : run.Pairwise (fun a b => key a = key b) := by
    have related : run.IsChain (fun a b => key a = key b) :=
      chain.imp fun a b same => by simpa [sameKey] using same
    have trans : Trans (fun a b : α => key a = key b) (fun a b => key a = key b)
        (fun a b => key a = key b) := ⟨fun ab bc => ab.trans bc⟩
    exact isChain_iff_pairwise.mp related
  have symm : Std.Symm (fun a b : α => key a = key b) := ⟨fun _ _ same => same.symm⟩
  exact @List.Pairwise.forall_of_forall _ (fun a b => key a = key b) run symm (fun _ _ => rfl)
    pairwise _ first _ second

end Runs
