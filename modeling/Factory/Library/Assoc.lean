import Mathlib.Data.List.Nodup

namespace Assoc

open List

variable {κ α ε : Type} [DecidableEq κ]

def alter (key : κ) (f : Option α → α) : List (κ × α) → List (κ × α)
  | [] => [(key, f none)]
  | (k, value) :: rest =>
    if k = key then (k, f (some value)) :: rest else (k, value) :: alter key f rest

def get (key : κ) (entries : List (κ × α)) : Option α :=
  (entries.find? (fun entry => entry.1 = key)).map Prod.snd

variable {key other : κ} {f : Option α → α} {entries : List (κ × α)}

theorem get_alter_self : get key (alter key f entries) = some (f (get key entries)) := by
  induction entries with
  | nil => simp [alter,get]
  | cons entry rest ih =>
    obtain ⟨k,value⟩ := entry
    by_cases same : k = key
    · simp [alter,get,same]
    · have skip : ∀ tail : List (κ × α), get key ((k, value) :: tail) = get key tail := by
        intro tail
        simp [get,same]
      rw [alter,if_neg same,skip,skip]
      exact ih

theorem get_alter_other (different : other ≠ key) :
    get other (alter key f entries) = get other entries := by
  induction entries with
  | nil => simp [alter,get,different.symm]
  | cons entry rest ih =>
    obtain ⟨k,value⟩ := entry
    by_cases same : k = key
    · simp [alter,get,same,different.symm]
    · rw [alter,if_neg same]
      by_cases hit : k = other
      · simp [get,hit]
      · have skip : ∀ tail : List (κ × α), get other ((k, value) :: tail) = get other tail := by
          intro tail
          simp [get,hit]
        rw [skip,skip]
        exact ih

theorem mem_keys_alter : other ∈ (alter key f entries).map Prod.fst ↔
    other = key ∨ other ∈ entries.map Prod.fst := by
  induction entries with
  | nil => simp [alter]
  | cons entry rest ih =>
    obtain ⟨k,value⟩ := entry
    by_cases same : k = key
    · subst same
      simp [alter]
    · rw [alter,if_neg same,map_cons,mem_cons,ih,map_cons,mem_cons]
      tauto

theorem nodup_alter (nodup : (entries.map Prod.fst).Nodup) :
    ((alter key f entries).map Prod.fst).Nodup := by
  induction entries with
  | nil => simp [alter]
  | cons entry rest ih =>
    obtain ⟨k,value⟩ := entry
    obtain ⟨fresh,rest_nodup⟩ := nodup_cons.mp nodup
    by_cases same : k = key
    · rw [alter,if_pos same]
      exact nodup
    · rw [alter,if_neg same]
      refine nodup_cons.mpr ⟨?_,ih rest_nodup⟩
      rw [mem_keys_alter,not_or]
      exact ⟨same,fresh⟩

theorem mem_iff_get (nodup : (entries.map Prod.fst).Nodup) {value : α} :
    (key, value) ∈ entries ↔ get key entries = some value := by
  constructor
  · intro mem
    cases found : entries.find? (fun entry => entry.1 = key) with
    | none => exact absurd (find?_eq_none.mp found (key, value) mem) (by simp)
    | some entry =>
      have same : entry.1 = key := by simpa using find?_some found
      have equal := inj_on_of_nodup_map nodup (mem_of_find?_eq_some found) mem same
      rw [get,found,equal]
      rfl
  · intro found
    obtain ⟨entry,hit,rfl⟩ := Option.map_eq_some_iff.mp found
    obtain rfl : entry.1 = key := by simpa using find?_some hit
    exact mem_of_find?_eq_some hit

def gather (keyOf : ε → κ) (step : ε → Option α → α) (events : List ε)
    (entries : List (κ × α)) : List (κ × α) :=
  events.foldl (fun entries event => alter (keyOf event) (step event) entries) entries

variable {keyOf : ε → κ} {step : ε → Option α → α} {events : List ε}

theorem get_gather : get key (gather keyOf step events entries) =
    (events.filter (fun event => keyOf event = key)).foldl
      (fun value event => some (step event value)) (get key entries) := by
  induction events generalizing entries with
  | nil => rfl
  | cons event rest ih =>
    rw [gather,foldl_cons]
    refine ih.trans ?_
    by_cases same : keyOf event = key
    · subst same
      rw [get_alter_self,filter_cons_of_pos (by simp),foldl_cons]
    · rw [get_alter_other (Ne.symm same),filter_cons_of_neg (by simpa using same)]

theorem nodup_gather (nodup : (entries.map Prod.fst).Nodup) :
    ((gather keyOf step events entries).map Prod.fst).Nodup := by
  induction events generalizing entries with
  | nil => exact nodup
  | cons event rest ih => exact ih (nodup_alter nodup)

theorem lookup_of_nodup {entry : κ × α} (distinct : (entries.map Prod.fst).Nodup)
    (listed : entry ∈ entries) : entries.lookup entry.1 = some entry.2 := by
  induction entries with
  | nil => cases listed
  | cons first rest ih =>
    obtain ⟨single,distinct⟩ := nodup_cons.mp distinct
    rcases mem_cons.mp listed with rfl | later
    · rw [lookup_cons,beq_self_eq_true]
    · have other : entry.1 ≠ first.1 := fun same => single (same ▸ mem_map_of_mem later)
      rw [lookup_cons,beq_eq_false_iff_ne.mpr other]
      exact ih distinct later

theorem forall_alter {P : α → Prop} (held : ∀ entry ∈ entries, P entry.2)
    (kept : ∀ found : Option α, (∀ value ∈ found, P value) → P (f found)) :
    ∀ entry ∈ alter key f entries, P entry.2 := by
  induction entries with
  | nil =>
    intro entry listed
    cases mem_singleton.mp listed
    exact kept none nofun
  | cons first rest ih =>
    obtain ⟨k,value⟩ := first
    have own := held (k, value) mem_cons_self
    have others : ∀ entry ∈ rest, P entry.2 := fun entry listed =>
      held entry (mem_cons_of_mem _ listed)
    intro entry listed
    rw [alter] at listed
    split at listed
    · rcases mem_cons.mp listed with rfl | later
      · refine kept (some value) ?_
        rintro _ ⟨⟩
        exact own
      · exact others entry later
    · rcases mem_cons.mp listed with rfl | later
      · exact own
      · exact ih others entry later

theorem forall_gather {P : α → Prop} (held : ∀ entry ∈ entries, P entry.2)
    (kept : ∀ event ∈ events, ∀ found : Option α, (∀ value ∈ found, P value) →
      P (step event found)) :
    ∀ entry ∈ gather keyOf step events entries, P entry.2 := by
  induction events generalizing entries with
  | nil => exact held
  | cons event rest ih =>
    rw [gather,foldl_cons]
    exact ih (forall_alter held (kept event mem_cons_self))
      fun later listed => kept later (mem_cons_of_mem _ listed)

end Assoc
