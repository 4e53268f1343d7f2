import Mathlib.Data.Fintype.EquivFin
import Mathlib.Data.List.Nodup

namespace Matching

variable {α β κ : Type} {xs : List α} {ys : List β} {related : α → β → Prop} {left : α → κ}
  {right : β → κ}

def Pairs (related : α → β → Prop) (xs : List α) (ys : List β) : Prop :=
  ∃ pairing : Fin xs.length ≃ Fin ys.length,
    ∀ index, related (xs.get index) (ys.get (pairing index))

theorem get_injective (distinct : (xs.map left).Nodup) :
    Function.Injective (fun index : Fin xs.length => left (xs.get index)) := by
  intro first second same
  have equal : xs.get first = xs.get second :=
    List.inj_on_of_nodup_map distinct (xs.get_mem first) (xs.get_mem second) same
  exact List.nodup_iff_injective_get.mp (List.Nodup.of_map left distinct) equal

theorem Pairs.of_covered (keyed : ∀ x y, related x y → left x = right y)
    (distinct : (xs.map left).Nodup) (size : xs.length = ys.length)
    (covered : ∀ x ∈ xs, ∃ y ∈ ys, related x y) : Pairs related xs ys := by
  have targets : ∀ index : Fin xs.length, ∃ target : Fin ys.length,
      related (xs.get index) (ys.get target) := fun index => by
    obtain ⟨y,listed,holds⟩ := covered _ (xs.get_mem index)
    obtain ⟨target,rfl⟩ := List.get_of_mem listed
    exact ⟨target,holds⟩
  choose target holds using targets
  have injective : Function.Injective target := fun first second same => by
    refine get_injective distinct ?_
    have one := keyed _ _ (holds first)
    have two := keyed _ _ (holds second)
    rw [same] at one
    exact one.trans two.symm
  have bijective : Function.Bijective target :=
    (Fintype.bijective_iff_injective_and_card target).mpr ⟨injective,by simpa using size⟩
  exact ⟨Equiv.ofBijective target bijective,holds⟩

theorem Pairs.length (h : Pairs related xs ys) : xs.length = ys.length := by
  obtain ⟨pairing,_⟩ := h
  simpa using Fintype.card_congr pairing

theorem Pairs.covered (h : Pairs related xs ys) {x : α} (listed : x ∈ xs) :
    ∃ y ∈ ys, related x y := by
  obtain ⟨pairing,holds⟩ := h
  obtain ⟨index,rfl⟩ := List.get_of_mem listed
  exact ⟨_,ys.get_mem (pairing index),holds index⟩

theorem Pairs.distinct (keyed : ∀ x y, related x y → left x = right y)
    (distinct : (ys.map right).Nodup) (h : Pairs related xs ys) : (xs.map left).Nodup := by
  obtain ⟨pairing,holds⟩ := h
  have injective : Function.Injective (fun index : Fin xs.length => left (xs.get index)) := by
    intro first second same
    refine pairing.injective (get_injective distinct ?_)
    have one := keyed _ _ (holds first)
    have two := keyed _ _ (holds second)
    exact one.symm.trans (same.trans two)
  have listed : xs.map left = List.ofFn (left ∘ xs.get) := by
    rw [← List.map_ofFn,List.ofFn_get]
  rw [listed]
  exact List.nodup_ofFn.mpr injective

theorem Pairs.unique (keyed : ∀ x y, related x y → left x = right y)
    (distinct : (ys.map right).Nodup) (h : Pairs related xs ys) {y : β} (listed : y ∈ ys) :
    ∃! index : Fin xs.length, left (xs.get index) = right y := by
  obtain ⟨pairing,holds⟩ := id h
  obtain ⟨target,rfl⟩ := List.get_of_mem listed
  refine ⟨pairing.symm target,?_,fun other same => ?_⟩
  · have met := keyed _ _ (holds (pairing.symm target))
    rwa [pairing.apply_symm_apply] at met
  · refine get_injective (h.distinct keyed distinct) (same.trans ?_)
    have met := keyed _ _ (holds (pairing.symm target))
    rw [pairing.apply_symm_apply] at met
    exact met.symm

end Matching
