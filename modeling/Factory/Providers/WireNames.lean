import Factory.Library.Table
import Factory.Providers.Tools

open List Nat

namespace Providers

open Json (Value)
open Result Table

theorem syntheticName_toList (index : Nat) :
    (syntheticName index).toList = "factory_tool_".toList ++ toDigits 10 index := by
  rw [syntheticName,String.toList_append,toString_eq_repr,toList_repr]

theorem syntheticName_inj {i j : Nat} (same : syntheticName i = syntheticName j) : i = j := by
  have chars := congrArg String.toList same
  rw [syntheticName_toList,syntheticName_toList] at chars
  have digits := append_cancel_left chars
  rw [← @ofDigitChars_ten_toDigits i,digits,ofDigitChars_ten_toDigits]

def WireName (name : String) : Prop :=
  name ≠ "" ∧ name.length ≤ 64 ∧ ∀ c ∈ name.toList, c.isAlphanum = true ∨ c = '_' ∨ c = '-'

theorem isWireCharacter_iff {c : Char} :
    isWireCharacter c = true ↔ c.isAlphanum = true ∨ c = '_' ∨ c = '-' := by
  simp [isWireCharacter,or_assoc]

variable {index next : Nat} {owners : List (String × Option Nat)} {candidate : String}
  {used : List String} {bindings : List ToolBinding} {binding : ToolBinding}

theorem syntheticName_wire (small : index < 2147483648) :
    WireName (syntheticName index) := by
  have chars := syntheticName_toList index
  refine ⟨?_,?_,?_⟩
  · intro blank
    rw [blank] at chars
    exact absurd chars (by simp)
  · have digits : (toDigits 10 index).length ≤ 10 :=
      (length_toDigits_le_iff (by omega) (by omega)).mpr (by omega)
    rw [← String.length_toList,chars,length_append]
    have start : "factory_tool_".toList.length = 13 := rfl
    omega
  · intro c mem
    rw [chars,mem_append] at mem
    rcases mem with fixed | digit
    · have all : "factory_tool_".toList.all isWireCharacter = true := by decide
      exact isWireCharacter_iff.mp (all_eq_true.mp all c fixed)
    · have isDigit := isDigit_of_mem_toDigits (by omega) (by omega) digit
      exact .inl (by simp [Char.isAlphanum,isDigit])

theorem sanitizedWireName_chars (nameSpace : Option String) (name : String) :
    ∀ c ∈ (sanitizedWireName nameSpace name).toList, c.isAlphanum = true ∨ c = '_' ∨ c = '-' := by
  intro c mem
  simp only [sanitizedWireName,String.toList_ofList,mem_map] at mem
  obtain ⟨source,-,rfl⟩ := mem
  split
  · rename_i wire
    exact isWireCharacter_iff.mp wire
  · exact .inr (.inl rfl)

theorem free_synthetic {taken : String → Bool} {blocked : List String} {start : Nat}
    (covered : ∀ j, start ≤ j → taken (syntheticName j) = true → syntheticName j ∈ blocked) :
    ∃ steps ≤ blocked.length, taken (syntheticName (start + steps)) = false ∧
      ∀ earlier < steps, taken (syntheticName (start + earlier)) = true := by
  induction size : blocked.length generalizing blocked start with
  | zero =>
    obtain rfl : blocked = [] := length_eq_zero_iff.mp size
    refine ⟨0,le_refl _,?_,fun earlier before => absurd before (not_lt_zero _)⟩
    rw [← Bool.not_eq_true]
    intro hit
    exact absurd (covered _ (le_refl _) hit) not_mem_nil
  | succ size ih =>
    by_cases hit : taken (syntheticName start) = true
    · have present := covered start (le_refl _) hit
      have rest := @ih (blocked.erase (syntheticName start)) (start + 1) (fun j later taken => by
        refine (mem_erase_of_ne ?_).mpr (covered j (by omega) taken)
        intro same
        have := syntheticName_inj same
        omega) (by
        rw [length_erase_of_mem present]
        omega)
      obtain ⟨steps,bound,free,before⟩ := rest
      refine ⟨steps + 1,by omega,?_,?_⟩
      · rw [show start + (steps + 1) = start + 1 + steps by omega]
        exact free
      · intro earlier less
        cases earlier with
        | zero => exact hit
        | succ earlier =>
          rw [show start + (earlier + 1) = start + 1 + earlier by omega]
          exact before earlier (by omega)
    · exact ⟨0,by omega,by simpa using hit,fun earlier before => absurd before (not_lt_zero _)⟩

theorem nextSynthetic_some (h : nextSynthetic index = some next) :
    index < 2147483647 ∧ next = index + 1 := by
  unfold nextSynthetic at h
  split at h
  · rename_i small
    cases h
    exact ⟨small,rfl⟩
  · cases h

theorem findSynthetic_first {taken : String → Bool} {fuel steps : Nat} {name : String}
    (enough : steps ≤ fuel) (free : taken (syntheticName (index + steps)) = false)
    (before : ∀ earlier < steps, taken (syntheticName (index + earlier)) = true)
    (found : findSynthetic taken fuel index = some (name, next)) :
    name = syntheticName (index + steps) ∧ index + steps < 2147483647 := by
  induction fuel generalizing steps index with
  | zero =>
    obtain rfl : steps = 0 := by omega
    rw [findSynthetic] at found
    obtain ⟨_,advanced,same⟩ := Option.map_eq_some_iff.mp found
    cases same
    exact ⟨rfl,(nextSynthetic_some advanced).1⟩
  | succ fuel ih =>
    rw [findSynthetic] at found
    obtain ⟨_,advanced,rest⟩ := Option.bind_eq_some_iff.mp found
    obtain ⟨small,rfl⟩ := nextSynthetic_some advanced
    cases steps with
    | zero =>
      rw [Nat.add_zero] at free
      rw [if_neg (by simp [free])] at rest
      cases rest
      exact ⟨rfl,small⟩
    | succ steps =>
      have hit : taken (syntheticName index) = true := before 0 (by omega)
      rw [if_pos hit] at rest
      have shift : ∀ k, index + 1 + k = index + (k + 1) := fun k => by omega
      have later := @ih (index + 1) steps (by omega) (by rw [shift]; exact free)
        (fun earlier less => by rw [shift]; exact before (earlier + 1) (by omega)) rest
      rw [shift] at later
      exact later

theorem alias_taken (hit : conflictsWithAlias owners index candidate = true) :
    candidate ∈ owners.map Prod.fst := by
  unfold conflictsWithAlias Assoc.get at hit
  cases found : owners.find? (fun entry => entry.1 = candidate) with
  | none =>
    rw [found] at hit
    cases hit
  | some entry =>
    obtain rfl : entry.1 = candidate := by simpa using find?_some found
    exact mem_map_of_mem (mem_of_find?_eq_some found)

theorem search_terminates (owners : List (String × Option Nat)) (used : List String)
    (index start : Nat) :
    ∃ steps ≤ used.length + owners.length,
      wireNameTaken owners used index (syntheticName (start + steps)) = false ∧
        ∀ earlier < steps,
          wireNameTaken owners used index (syntheticName (start + earlier)) = true := by
  have first := @free_synthetic (wireNameTaken owners used index) (used ++ owners.map Prod.fst)
    start (fun j _ taken => by
      rcases Bool.or_eq_true_iff.mp taken with known | owned
      · exact mem_append_left _ (by simpa using known)
      · exact mem_append_right _ (alias_taken owned))
  simpa using first

theorem wireNameFor_spec {synthetic : Nat} {kind : ToolKind} {name : String}
    (chosen : wireNameFor owners used synthetic index kind = some (name, next)) :
    WireName name ∧ wireNameTaken owners used index name = false := by
  unfold wireNameFor at chosen
  simp only at chosen
  split at chosen
  · obtain ⟨steps,enough,free,before⟩ := search_terminates owners used index synthetic
    obtain ⟨rfl,small⟩ := findSynthetic_first enough free before chosen
    exact ⟨syntheticName_wire (by omega),free⟩
  · rename_i kept
    cases chosen
    simp only [not_or,not_lt,Bool.not_eq_true] at kept
    exact ⟨⟨kept.1,kept.2.1,sanitizedWireName_chars _ _⟩,kept.2.2⟩

structure Assigned (owners : List (String × Option Nat)) (used : List String) (index : Nat)
    (bindings named : List ToolBinding) : Prop where
  kinds : named.map ToolBinding.kind = bindings.map ToolBinding.kind
  distinct : (named.map ToolBinding.wireName).Nodup
  wellFormed : ∀ binding ∈ named, WireName binding.wireName
  fresh : ∀ binding ∈ named, binding.wireName ∉ used
  unaliased : ∀ (j : Nat) (binding : ToolBinding), named[j]? = some binding →
    conflictsWithAlias owners (index + j) binding.wireName = false

theorem assignFrom_assigned {synthetic : Nat} {named : List ToolBinding}
    (run : assignFrom owners used synthetic index bindings = some named) :
    Assigned owners used index bindings named := by
  induction bindings generalizing used synthetic index named with
  | nil =>
    obtain rfl := Option.some.inj run
    exact ⟨rfl,.nil,by simp,by simp,by simp⟩
  | cons binding rest ih =>
    rw [assignFrom] at run
    obtain ⟨⟨wireName,next⟩,chosen,run⟩ := Option.bind_eq_some_iff.mp run
    obtain ⟨others,later,same⟩ := Option.bind_eq_some_iff.mp run
    obtain rfl := Option.some.inj same
    obtain ⟨wellFormed,free⟩ := wireNameFor_spec chosen
    obtain ⟨unused,unowned⟩ := Bool.or_eq_false_iff.mp free
    have tail := ih later
    refine ⟨?_,?_,?_,?_,?_⟩
    · rw [map_cons,map_cons,tail.kinds]
    · refine nodup_cons.mpr ⟨?_,tail.distinct⟩
      intro hit
      obtain ⟨other,mem,same⟩ := mem_map.mp hit
      exact tail.fresh other mem (same ▸ mem_cons_self)
    · intro other mem
      rcases mem_cons.mp mem with rfl | later
      · exact wellFormed
      · exact tail.wellFormed other later
    · intro other mem
      rcases mem_cons.mp mem with rfl | later
      · simpa using unused
      · exact fun hit => tail.fresh other later (mem_cons_of_mem _ hit)
    · intro j other found
      cases j with
      | zero =>
        obtain rfl : _ = other := Option.some.inj found
        exact unowned
      | succ j =>
        rw [show index + (j + 1) = index + 1 + j by omega]
        exact tail.unaliased j other (by simpa using found)

theorem owner_unique {entries : List (ToolBinding × Nat)} {index : Nat}
    (single : ∀ owner, entries.foldl (fun owner entry => some (match owner with
      | none => some entry.2
      | some _ => none)) (none : Option (Option Nat)) = some owner → owner = some index) :
    ∀ entry ∈ entries, entry.2 = index := by
  have shared : ∀ entries : List (ToolBinding × Nat), entries.foldl (fun owner entry =>
      some (match owner with
      | none => some entry.2
      | some _ => none)) (some none : Option (Option Nat)) = some none := by
    intro entries
    induction entries with
    | nil => rfl
    | cons entry rest ih => exact ih
  cases entries with
  | nil => simp
  | cons first rest =>
    cases rest with
    | nil =>
      intro entry mem
      obtain rfl := mem_singleton.mp mem
      exact Option.some.inj (single _ rfl)
    | cons second rest => cases single _ (shared rest)

theorem alias_owner (free : conflictsWithAlias (originalOwners bindings) index candidate = false)
    {j : Nat} (found : bindings[j]? = some binding) (named : binding.kind.name = candidate) :
    j = index := by
  have owners := @Assoc.get_gather _ _ _ _ candidate []
    (fun entry : ToolBinding × Nat => entry.1.kind.name)
    (fun entry owner => match owner with
      | none => some entry.2
      | some _ => none) bindings.zipIdx
  have entries := @owner_unique
    (bindings.zipIdx.filter (fun entry => entry.1.kind.name = candidate)) index
    (fun owner folded => by
      have lookup : Assoc.get candidate (originalOwners bindings) = some owner :=
        owners.trans folded
      rw [conflictsWithAlias,lookup] at free
      simpa using free)
  refine entries (binding, j) (mem_filter.mpr ⟨?_,by simpa using named⟩)
  exact mk_mem_zipIdx_iff_getElem?.mpr found

namespace ToolCatalog

def Resolvable (catalog : ToolCatalog) : Prop :=
  ∀ binding ∈ catalog.bindings, catalog.byWireName binding.wireName = some binding

theorem assigned_resolvable {bindings named : List ToolBinding}
    (assigned : Assigned (originalOwners bindings) [] 0 bindings named) :
    Resolvable ⟨named⟩ := by
  intro binding mem
  have only : ∀ other ∈ named,
      (other.wireName = binding.wireName || other.kind.name = binding.wireName : Bool) =
        (other.wireName = binding.wireName : Bool) := by
    intro other known
    by_cases called : other.kind.name = binding.wireName
    · obtain ⟨i,found⟩ := getElem?_of_mem mem
      obtain ⟨j,placed⟩ := getElem?_of_mem known
      have kinds := congrArg (fun kinds => kinds[j]?) assigned.kinds
      simp only [getElem?_map] at kinds
      have original : (bindings[j]?).map ToolBinding.kind = some other.kind := by
        rw [← kinds,placed]
        rfl
      obtain ⟨source,there,same⟩ := Option.map_eq_some_iff.mp original
      have position := alias_owner (assigned.unaliased i binding found) there
        (by rw [same,called])
      rw [Nat.zero_add] at position
      subst position
      obtain rfl : other = binding := Option.some.inj (placed.symm.trans found)
      simp
    · simp [called]
  have single : named.filter (fun other => other.wireName = binding.wireName) = [binding] :=
    filter_key assigned.distinct mem
  unfold byWireName
  rw [filter_congr only,single]

variable {catalog : ToolCatalog}

theorem fromRequest_assigned {request : Value}
    (accepted : fromRequest request = some (.ok catalog)) :
    ∃ bindings, (((request.get "tools").bind Value.asArray).getD []).foldlM pushTool [] =
      .ok bindings ∧ Assigned (originalOwners bindings) [] 0 bindings catalog.bindings := by
  unfold fromRequest at accepted
  split at accepted
  · cases accepted
  · rename_i bindings pushed
    obtain ⟨named,run,same⟩ := Option.map_eq_some_iff.mp accepted
    cases same
    exact ⟨bindings,pushed,assignFrom_assigned run⟩

theorem byWireName_mem {name : String} {binding : ToolBinding}
    (found : catalog.byWireName name = some binding) :
    catalog.bindings.filter (fun other => other.wireName = name || other.kind.name = name) =
      [binding] := by
  unfold byWireName at found
  split at found
  · rename_i single matched
    cases found
    exact matched
  · cases found

theorem wire_names_unambiguous {request : Value} {catalog : ToolCatalog}
    (accepted : fromRequest request = some (.ok catalog)) :
    (catalog.bindings.map ToolBinding.wireName).Nodup ∧
      (∀ binding ∈ catalog.bindings, WireName binding.wireName) ∧
      (∀ binding ∈ catalog.bindings, catalog.byWireName binding.wireName = some binding) ∧
      (∀ name binding, catalog.byWireName name = some binding →
        catalog.bindings.filter (fun other => other.wireName = name || other.kind.name = name) =
          [binding]) ∧
      ∀ owners used index start, ∃ steps ≤ used.length + owners.length,
        wireNameTaken owners used index (syntheticName (start + steps)) = false ∧
          ∀ earlier < steps,
            wireNameTaken owners used index (syntheticName (start + earlier)) = true := by
  obtain ⟨bindings,-,assigned⟩ := fromRequest_assigned accepted
  exact ⟨assigned.distinct,assigned.wellFormed,assigned_resolvable assigned,
    fun _ _ => byWireName_mem,search_terminates⟩

def collidingTools : Value :=
  .object [("tools", .array [
    .object [("type", .string "function"), ("name", .string "factory_tool_0")],
    .object [("type", .string "function"), ("name", .string "a b")],
    .object [("type", .string "custom"), ("name", .string "a b")]])]

theorem wire_names_unambiguous_colliding :
    ∃ catalog, fromRequest collidingTools = some (.ok catalog) ∧
      catalog.bindings.map ToolBinding.wireName = ["factory_tool_0", "a_b", "factory_tool_1"] ∧
      (catalog.bindings.map ToolBinding.wireName).Nodup := by
  refine ⟨_,rfl,by decide,(@wire_names_unambiguous collidingTools _ rfl).1⟩

end ToolCatalog

end Providers
