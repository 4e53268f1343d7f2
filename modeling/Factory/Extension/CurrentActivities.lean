import Factory.Extension.Context
import Factory.Extension.SubagentProjection

namespace Extension

open List

def Current (activities : List FactorySubagentActivity) (index : Nat) : Prop :=
  ∃ activity, activities[index]? = some activity ∧ ∃ threadId ∈ activity.receiverThreadIds,
    ∀ later ∈ activities.drop (index + 1), threadId ∉ later.receiverThreadIds

def FactorySubagentActivity.claim (activity : FactorySubagentActivity) (seen : List String) :
    Option String :=
  activity.receiverThreadIds.find? (fun threadId => threadId ∉ seen)

def claimed : List FactorySubagentActivity → List String
  | [] => []
  | activity :: later => (activity.claim (claimed later)).toList ++ claimed later

def Claims (activities : List FactorySubagentActivity) (index : Nat) : Prop :=
  ∃ activity, activities[index]? = some activity ∧
    (activity.claim (claimed (activities.drop (index + 1)))).isSome

def claimants : Nat → List FactorySubagentActivity → List Nat
  | _, [] => []
  | index, activity :: later =>
    (if (activity.claim (claimed later)).isSome then [index] else []) ++
      claimants (index + 1) later

section Claimants

variable {activities front back : List FactorySubagentActivity} {index offset limit : Nat}

theorem insertFirstNew_eq (threadIds seen : List String) :
    insertFirstNew threadIds seen =
      ((threadIds.find? (fun threadId => threadId ∉ seen)).isSome,
        (threadIds.find? (fun threadId => threadId ∉ seen)).toList ++ seen) := by
  induction threadIds with
  | nil => rfl
  | cons threadId rest ih =>
    by_cases known : threadId ∈ seen
    · simp [insertFirstNew,known,ih]
    · simp [insertFirstNew,known]

theorem claimed_subset {threadId : String} (h : threadId ∈ claimed activities) :
    ∃ activity ∈ activities, threadId ∈ activity.receiverThreadIds := by
  induction activities with
  | nil => cases h
  | cons activity later ih =>
    rcases mem_append.mp h with own | rest
    · have found := Option.mem_toList.mp own
      exact ⟨activity,mem_cons_self,mem_of_find?_eq_some found⟩
    · obtain ⟨other,listed,received⟩ := ih rest
      exact ⟨other,mem_cons_of_mem _ listed,received⟩

theorem Current.claims (h : Current activities index) : Claims activities index := by
  obtain ⟨activity,found,threadId,received,last⟩ := h
  refine ⟨activity,found,find?_isSome.mpr ⟨threadId,received,?_⟩⟩
  refine decide_eq_true fun seen => ?_
  obtain ⟨later,listed,again⟩ := claimed_subset seen
  exact last later listed again

theorem length_claimants (offset : Nat) (activities : List FactorySubagentActivity) :
    (claimants offset activities).length = (claimed activities).length := by
  induction activities generalizing offset with
  | nil => rfl
  | cons activity later ih =>
    rw [claimants,claimed,length_append,length_append,ih]
    cases activity.claim (claimed later) with
    | none => rfl
    | some threadId => rfl

theorem claimants_append (offset : Nat) (front back : List FactorySubagentActivity) :
    ∃ earlier, claimants offset (front ++ back) =
      earlier ++ claimants (offset + front.length) back := by
  induction front generalizing offset with
  | nil => exact ⟨[],rfl⟩
  | cons activity later ih =>
    obtain ⟨earlier,shape⟩ := ih (offset + 1)
    have shift : offset + 1 + later.length = offset + (activity :: later).length := by
      rw [length_cons]
      omega
    rw [shift] at shape
    refine ⟨(if (activity.claim (claimed (later ++ back))).isSome then [offset] else []) ++ earlier,
      ?_⟩
    rw [cons_append,claimants,shape,append_assoc]

theorem Claims.split (h : Claims activities index) :
    ∃ earlier, claimants 0 activities =
      earlier ++ index :: claimants (index + 1) (activities.drop (index + 1)) := by
  obtain ⟨activity,found,claim⟩ := h
  obtain ⟨inside,same⟩ := List.getElem?_eq_some_iff.mp found
  obtain ⟨earlier,shape⟩ := claimants_append 0 (activities.take index) (activities.drop index)
  have taken : 0 + (activities.take index).length = index := by
    rw [length_take]
    omega
  rw [taken,take_append_drop,drop_eq_getElem_cons inside,same,claimants,
    if_pos claim] at shape
  exact ⟨earlier,shape⟩

theorem claims_of_mem (h : index ∈ claimants offset activities) :
    ∃ position, index = offset + position ∧ Claims activities position := by
  induction activities generalizing offset with
  | nil => cases h
  | cons activity later ih =>
    rcases mem_append.mp h with own | rest
    · split at own
      · next claim =>
        cases mem_singleton.mp own
        exact ⟨0,rfl,activity,rfl,claim⟩
      · cases own
    · obtain ⟨position,rfl,found,at_position,claim⟩ := ih rest
      exact ⟨position + 1,by omega,found,at_position,claim⟩

theorem mem_claimants : index ∈ claimants 0 activities ↔ Claims activities index := by
  constructor
  · intro h
    obtain ⟨position,same,claims⟩ := claims_of_mem h
    rw [Nat.zero_add] at same
    exact same ▸ claims
  · intro h
    obtain ⟨earlier,shape⟩ := h.split
    rw [shape]
    exact mem_append_right _ mem_cons_self

variable {earlier : List Nat}

theorem rtake_of_length_le {entries : List Nat} (few : entries.length ≤ limit) :
    entries.rtake limit = entries := by
  rw [rtake,Nat.sub_eq_zero_of_le few,drop_zero]

theorem rtake_append {latest : List Nat} (full : latest.length = limit) :
    (earlier ++ latest).rtake limit = latest := by
  rw [rtake,length_append,full,Nat.add_sub_cancel,drop_left]

theorem selectLatest_claimants (front back : List FactorySubagentActivity)
    (few : (claimants front.length back).length < limit) :
    selectLatest limit front.zipIdx.reverse (claimants front.length back) (claimed back) =
      (claimants 0 (front ++ back)).rtake limit := by
  induction front using reverseRecOn generalizing back with
  | nil => exact (rtake_of_length_le few.le).symm
  | append_singleton front activity ih =>
    have size : (front ++ [activity]).length = front.length + 1 := by simp
    have entries : (front ++ [activity]).zipIdx.reverse =
        (activity, front.length) :: front.zipIdx.reverse := by
      rw [zipIdx_append]
      simp
    rw [size] at few ⊢
    rw [entries,selectLatest,insertFirstNew_eq,append_assoc,singleton_append]
    have own := ih (activity :: back)
    rw [claimants,claimed] at own
    rw [FactorySubagentActivity.claim] at own
    cases claim : activity.receiverThreadIds.find?
        (fun threadId => decide (threadId ∉ claimed back)) with
    | none =>
      rw [claim] at own
      exact own few
    | some threadId =>
      rw [claim] at own
      dsimp only [Option.isSome_some,if_true]
      by_cases full : (front.length :: claimants (front.length + 1) back).length = limit
      · rw [if_pos full]
        obtain ⟨earlier,shape⟩ := claimants_append 0 front (activity :: back)
        have latest : claimants (0 + front.length) (activity :: back) =
            front.length :: claimants (front.length + 1) back := by
          rw [Nat.zero_add,claimants,FactorySubagentActivity.claim,claim]
          rfl
        rw [shape,latest,rtake_append full]
      · rw [if_neg full]
        refine own ?_
        rw [length_cons] at full
        simp only [Option.isSome_some,if_true,length_append,length_singleton]
        omega

end Claimants

section Selection

variable {activities : List FactorySubagentActivity} {index limit : Nat}

variable {indices selected : List Nat}

theorem selectRecent_keeps (h : index ∈ selected) :
    index ∈ selectRecent limit indices selected := by
  induction indices generalizing selected with
  | nil => exact h
  | cons next rest ih =>
    simp only [selectRecent]
    split
    · exact h
    · split
      · exact ih h
      · exact ih (mem_cons_of_mem _ h)

theorem selectRecent_full (indices : List Nat) (full : selected.length = limit) :
    selectRecent limit indices selected = selected := by
  cases indices with
  | nil => rfl
  | cons next rest => rw [selectRecent,if_pos full]

theorem selectRecent_length (distinct : indices.Nodup) (few : selected.length ≤ limit) :
    (selectRecent limit indices selected).length =
      min limit (selected.length + (indices.filter (· ∉ selected)).length) := by
  induction indices generalizing selected with
  | nil =>
    rw [selectRecent,filter_nil,length_nil]
    omega
  | cons next rest ih =>
    obtain ⟨single,distinct⟩ := nodup_cons.mp distinct
    rw [selectRecent]
    by_cases full : selected.length = limit
    · rw [if_pos full]
      omega
    · rw [if_neg full]
      by_cases known : next ∈ selected
      · rw [if_pos known,ih distinct few,filter_cons_of_neg (by simp [known])]
      · have others : rest.filter (· ∉ next :: selected) = rest.filter (· ∉ selected) := by
          refine filter_congr fun other listed => ?_
          have different : other ≠ next := fun same => single (same ▸ listed)
          simp [different]
        rw [if_neg known,ih distinct (by rw [length_cons]; omega),others,
          filter_cons_of_pos (by simp [known]),length_cons,length_cons]
        omega

theorem length_filter_notMem {bound : Nat} (nodup : selected.Nodup)
    (inside : ∀ index ∈ selected, index ∈ range bound) :
    selected.length + ((range bound).reverse.filter (· ∉ selected)).length = bound := by
  have whole := length_eq_length_filter_add (l := range bound) (· ∈ selected)
  have chosen : ((range bound).filter (· ∈ selected)).length = selected.length := by
    refine List.Perm.length_eq ((perm_ext_iff_of_nodup (nodup_range.filter _) nodup).mpr
      fun index => ?_)
    simp only [mem_filter,decide_eq_true_eq]
    exact ⟨And.right,fun member => ⟨inside index member,member⟩⟩
  rw [filter_reverse,length_reverse]
  rw [length_range,chosen] at whole
  simpa using whole.symm

structure Projects (limit : Nat) (activities : List FactorySubagentActivity) (kept : List Nat) :
    Prop where
  ordered : kept.Sublist (range activities.length)
  size : kept.length = min limit activities.length

theorem selectLatest_rtake (positive : 1 ≤ limit) :
    selectLatest limit activities.zipIdx.reverse [] [] = (claimants 0 activities).rtake limit := by
  have latest : selectLatest limit activities.zipIdx.reverse [] [] =
      (claimants 0 (activities ++ [])).rtake limit := selectLatest_claimants activities [] positive
  rwa [append_nil] at latest

theorem length_rtake_le (entries : List Nat) : (entries.rtake limit).length ≤ limit := by
  rw [rtake,length_drop]
  omega

theorem selectedActivities_projects (positive : 1 ≤ limit) :
    Projects limit activities (selectedActivities limit activities) := by
  refine ⟨selection_sublist limit activities,?_⟩
  have few : (selectLatest limit activities.zipIdx.reverse [] []).length ≤ limit := by
    rw [selectLatest_rtake positive]
    exact length_rtake_le _
  have whole := length_filter_notMem (selectLatest_range_nodup limit activities)
    fun index => selectLatest_range
  rw [selectedActivities,length_insertionSort,
    selectRecent_length (nodup_reverse.mpr nodup_range) few,whole]

theorem mem_selectedActivities :
    index ∈ selectedActivities limit activities ↔
      index ∈ selectRecent limit (range activities.length).reverse
        (selectLatest limit activities.zipIdx.reverse [] []) :=
  mem_insertionSort _

theorem claims_of_selected (positive : 1 ≤ limit) (full : limit ≤ (claimed activities).length)
    (kept : index ∈ selectedActivities limit activities) : Claims activities index := by
  have size : ((claimants 0 activities).rtake limit).length = limit := by
    rw [rtake,length_drop,length_claimants]
    omega
  rw [mem_selectedActivities,selectLatest_rtake positive,selectRecent_full _ size] at kept
  exact mem_claimants.mp (mem_of_mem_drop kept)

theorem selectedActivities_short (positive : 1 ≤ limit) (few : (claimed activities).length < limit)
    (claims : Claims activities index) : index ∈ selectedActivities limit activities := by
  have short : (claimants 0 activities).length ≤ limit := by
    rw [length_claimants]
    exact few.le
  rw [mem_selectedActivities,selectLatest_rtake positive,rtake_of_length_le short]
  exact selectRecent_keeps (mem_claimants.mpr claims)

end Selection

def PrefersCurrent (activities : List FactorySubagentActivity) (kept : List Nat) : Prop :=
  (∃ index, Current activities index ∧ index ∉ kept) → ∀ index ∈ kept, Current activities index

def NamedFirst : List FactorySubagentActivity → Prop
  | [] => True
  | activity :: later =>
    (∀ threadId ∈ activity.receiverThreadIds,
      (∃ other ∈ later, threadId ∈ other.receiverThreadIds) →
        ∃ other ∈ later, other.receiverThreadIds.head? = some threadId) ∧
      NamedFirst later

instance decidableNamedFirst : ∀ activities, Decidable (NamedFirst activities)
  | [] => inferInstanceAs (Decidable True)
  | _ :: later =>
    have := decidableNamedFirst later
    inferInstanceAs (Decidable (_ ∧ _))

variable {activities : List FactorySubagentActivity} {limit : Nat}

theorem NamedFirst.drop (h : NamedFirst activities) (index : Nat) :
    NamedFirst (activities.drop index) := by
  induction index generalizing activities with
  | zero => exact h
  | succ index ih =>
    cases activities with
    | nil => exact h
    | cons activity later => exact ih h.2

theorem first_claimed {activity : FactorySubagentActivity} {threadId : String}
    (listed : activity ∈ activities) (first : activity.receiverThreadIds.head? = some threadId) :
    threadId ∈ claimed activities := by
  induction activities with
  | nil => cases listed
  | cons latest later ih =>
    rw [claimed]
    rcases mem_cons.mp listed with rfl | listed
    · by_cases known : threadId ∈ claimed later
      · exact mem_append_right _ known
      · obtain ⟨rest,shape⟩ := head?_eq_some_iff.mp first
        have claim : activity.claim (claimed later) = some threadId := by
          rw [FactorySubagentActivity.claim,shape,find?_cons_of_pos (by simpa using known)]
        rw [claim]
        exact mem_append_left _ mem_cons_self
    · exact mem_append_right _ (ih listed)

theorem NamedFirst.current {index : Nat} (h : NamedFirst activities)
    (claims : Claims activities index) : Current activities index := by
  obtain ⟨activity,found,claim⟩ := claims
  obtain ⟨threadId,claim⟩ := Option.isSome_iff_exists.mp claim
  have received : threadId ∈ activity.receiverThreadIds := mem_of_find?_eq_some claim
  have unclaimed : threadId ∉ claimed (activities.drop (index + 1)) := by
    simpa using find?_some claim
  refine ⟨activity,found,threadId,received,?_⟩
  obtain ⟨inside,same⟩ := List.getElem?_eq_some_iff.mp found
  have suffix := h.drop index
  rw [drop_eq_getElem_cons inside,same] at suffix
  intro later listed again
  obtain ⟨other,follows,first⟩ := suffix.1 threadId received ⟨later,listed,again⟩
  exact unclaimed (first_claimed follows first)

theorem prefersCurrent (positive : 1 ≤ limit) (named : NamedFirst activities) :
    PrefersCurrent activities (selectedActivities limit activities) := by
  rintro ⟨lost,current,missing⟩ index kept
  by_cases full : limit ≤ (claimed activities).length
  · exact named.current (claims_of_selected positive full kept)
  · exact absurd (selectedActivities_short positive (Nat.not_le.mp full) current.claims) missing

theorem boundedProjection_selected (activities : List FactorySubagentActivity) :
    boundedProjection activities =
      (selectedActivities maxProjectedSubagentActivities activities).filterMap
        (fun index => activities[index]?) := by
  unfold boundedProjection
  split
  · next small =>
    have projects : Projects maxProjectedSubagentActivities activities
        (selectedActivities maxProjectedSubagentActivities activities) :=
      selectedActivities_projects (by decide)
    have whole : selectedActivities maxProjectedSubagentActivities activities =
        range activities.length := by
      refine projects.ordered.eq_of_length ?_
      rw [projects.size,length_range,Nat.min_eq_right small]
    rw [whole,filterMap_range]
  · rfl

namespace Sample

def waited (callId : String) (receiverThreadIds : List String) : FactorySubagentActivity :=
  ⟨callId, "turn", "parent", receiverThreadIds, .wait, none, .completed, [], "t0", "t1"⟩

def crowd (receiverThreadIds : List String) : List FactorySubagentActivity :=
  (range 24).map (fun n => waited (toString n) ["agent-" ++ toString n]) ++
    [waited "24" ["b"], waited "25" receiverThreadIds]

end Sample

open Sample

end Extension
