import Factory.Extension.SubagentArchive

namespace Extension

open Json List

def FactorySubagentActivity.logical (activity : FactorySubagentActivity) :
    String × String × String :=
  (activity.callId, activity.turnId, activity.senderThreadId)

theorem sameLogicalActivity_iff {left right : FactorySubagentActivity} :
    sameLogicalActivity left right = true ↔ left.logical = right.logical := by
  simp [sameLogicalActivity,FactorySubagentActivity.logical,and_assoc]

section Projection

variable {limit : Nat}

variable {selected : List Nat} {seen : List String} {index : Nat} {indices : List Nat}

theorem selectLatest_nodup {entries : List (FactorySubagentActivity × Nat)}
    (nodup : (entries.map Prod.snd ++ selected).Nodup) :
    (selectLatest limit entries selected seen).Nodup := by
  induction entries generalizing selected seen with
  | nil => exact nodup
  | cons entry rest ih =>
    obtain ⟨activity,index⟩ := entry
    have apart : (rest.map Prod.snd ++ index :: selected).Nodup :=
      (perm_middle.nodup_iff).mpr nodup
    simp only [selectLatest]
    split
    · exact ih (nodup_cons.mp nodup).2
    · split
      · exact (nodup_append.mp apart).2.1
      · exact ih apart

theorem selectLatest_subset {entries : List (FactorySubagentActivity × Nat)}
    (h : index ∈ selectLatest limit entries selected seen) :
    index ∈ selected ∨ index ∈ entries.map Prod.snd := by
  induction entries generalizing selected seen with
  | nil => exact .inl h
  | cons entry rest ih =>
    obtain ⟨activity,next⟩ := entry
    have settle : index ∈ next :: selected ∨ index ∈ rest.map Prod.snd →
        index ∈ selected ∨ index ∈ ((activity, next) :: rest).map Prod.snd := by
      rintro (own | later)
      · rcases mem_cons.mp own with rfl | old
        · exact .inr mem_cons_self
        · exact .inl old
      · exact .inr (mem_cons_of_mem _ later)
    simp only [selectLatest] at h
    split at h
    · exact (ih h).imp id (mem_cons_of_mem _)
    · split at h
      · exact settle (.inl h)
      · exact settle (ih h)

theorem selectRecent_nodup (nodup : selected.Nodup) :
    (selectRecent limit indices selected).Nodup := by
  induction indices generalizing selected with
  | nil => exact nodup
  | cons index rest ih =>
    simp only [selectRecent]
    split
    · exact nodup
    · split
      · exact ih nodup
      · next absent => exact ih (nodup_cons.mpr ⟨absent,nodup⟩)

theorem selectRecent_subset (h : index ∈ selectRecent limit indices selected) :
    index ∈ selected ∨ index ∈ indices := by
  induction indices generalizing selected with
  | nil => exact .inl h
  | cons next rest ih =>
    simp only [selectRecent] at h
    split at h
    · exact .inl h
    · split at h
      · exact (ih h).imp id (mem_cons_of_mem _)
      · rcases ih h with own | later
        · rcases mem_cons.mp own with rfl | old
          · exact .inr mem_cons_self
          · exact .inl old
        · exact .inr (mem_cons_of_mem _ later)

theorem filterMap_range {α : Type} (xs : List α) :
    (range xs.length).filterMap (fun index => xs[index]?) = xs := by
  induction xs using reverseRecOn with
  | nil => rfl
  | append_singleton xs x ih =>
    have inside : (range xs.length).filterMap (fun index => (xs ++ [x])[index]?) =
        (range xs.length).filterMap (fun index => xs[index]?) := by
      refine filterMap_congr fun index member => ?_
      rw [getElem?_append_left (mem_range.mp member)]
    rw [length_append,length_singleton,range_succ,filterMap_append,
      inside,ih]
    simp

theorem zipIdx_indices {α : Type} (xs : List α) :
    xs.zipIdx.reverse.map Prod.snd = (range xs.length).reverse := by
  rw [map_reverse,zipIdx_map_snd,range_eq_range']

theorem selectLatest_range_nodup (limit : Nat) (activities : List FactorySubagentActivity) :
    (selectLatest limit activities.zipIdx.reverse [] []).Nodup := by
  refine selectLatest_nodup ?_
  rw [append_nil,zipIdx_indices,nodup_reverse]
  exact nodup_range

theorem selectLatest_range {activities : List FactorySubagentActivity}
    (h : index ∈ selectLatest limit activities.zipIdx.reverse [] []) :
    index ∈ range activities.length := by
  rcases selectLatest_subset h with none | chosen
  · cases none
  · rw [zipIdx_indices] at chosen
    exact mem_reverse.mp chosen

theorem sorted_sublist {bound : Nat} (nodup : selected.Nodup)
    (inside : ∀ index ∈ selected, index ∈ range bound) :
    (selected.insertionSort (· ≤ ·)).Sublist (range bound) := by
  refine sublist_of_subperm_of_pairwise (r := (· ≤ ·)) ?_
    (pairwise_insertionSort _ _) (pairwise_lt_range.imp le_of_lt)
  exact (perm_insertionSort _ _).subperm.trans (subperm_of_subset nodup inside)

theorem selection_sublist (limit : Nat) (activities : List FactorySubagentActivity) :
    ((selectRecent limit (range activities.length).reverse
      (selectLatest limit activities.zipIdx.reverse [] [])).insertionSort (· ≤ ·)).Sublist
        (range activities.length) := by
  refine sorted_sublist (selectRecent_nodup (selectLatest_range_nodup limit activities))
    fun index member => ?_
  rcases selectRecent_subset member with latest | recent
  · exact selectLatest_range latest
  · exact mem_reverse.mp recent

theorem boundedProjection_sublist (activities : List FactorySubagentActivity) :
    (boundedProjection activities).Sublist activities := by
  unfold boundedProjection
  split
  · exact List.Sublist.refl _
  · have picked := (selection_sublist maxProjectedSubagentActivities activities).filterMap
      (fun index => activities[index]?)
    rwa [filterMap_range] at picked

end Projection

inductive Removed (activity : FactorySubagentActivity) (activities : List FactorySubagentActivity) :
    Option FactorySubagentActivity × List FactorySubagentActivity → Prop where
  | absent (none_same : ∀ a ∈ activities, a.logical ≠ activity.logical) :
      Removed activity activities (none, activities)
  | found (before after : List FactorySubagentActivity) (existing : FactorySubagentActivity)
      (split : activities = before ++ existing :: after)
      (same : existing.logical = activity.logical) :
      Removed activity activities (some existing, before ++ after)

theorem removeLogical_removed (activity : FactorySubagentActivity)
    (activities : List FactorySubagentActivity) :
    Removed activity activities (removeLogical activity activities) := by
  induction activities with
  | nil => exact .absent fun a member => absurd member not_mem_nil
  | cons existing rest ih =>
    unfold removeLogical
    split
    · next same => exact .found [] rest existing rfl (sameLogicalActivity_iff.mp same)
    · next differs =>
      have differs : existing.logical ≠ activity.logical := fun same =>
        differs (sameLogicalActivity_iff.mpr same)
      generalize removeLogical activity rest = removed at ih ⊢
      cases ih with
      | absent none_same =>
        refine .absent fun a member => ?_
        rcases mem_cons.mp member with rfl | later
        · exact differs
        · exact none_same a later
      | found before after entry split same =>
        exact .found (existing :: before) after entry (by rw [split]; rfl) same

def FactoryState.entries (key : String × String × String) (state : FactoryState) : Nat :=
  state.subagents.countP (fun a => a.logical = key)

def replaced (activity : FactorySubagentActivity) (state : FactoryState) :
    List FactorySubagentActivity :=
  let removed := removeLogical activity state.subagents
  removed.2 ++ [{ activity with
    createdAt := (removed.1.map (·.createdAt)).getD activity.createdAt }]

theorem applyActivity_sublist (activity : FactorySubagentActivity) (archive : Option Nat)
    (state : FactoryState) :
    (applyActivity activity archive state).subagents.Sublist (replaced activity state) := by
  cases archive with
  | none => exact List.Sublist.refl _
  | some sequence => exact boundedProjection_sublist _

theorem applyActivity_history (activity : FactorySubagentActivity) (sequence : Nat)
    (state : FactoryState) :
    ∃ h, (applyActivity activity (some sequence) state).subagentHistory = some h ∧
      sequence ≤ h.latestSequence ∧
      ∀ old ∈ state.subagentHistory, old.latestSequence ≤ h.latestSequence := by
  refine ⟨_,rfl,Nat.le_max_right _ _,?_⟩
  rintro old stored
  rw [Option.mem_def.mp stored]
  exact Nat.le_max_left _ _

variable {state : FactoryState} {activity : FactorySubagentActivity}

theorem mem_replaced {a : FactorySubagentActivity} (h : a ∈ replaced activity state) :
    a ∈ state.subagents ∨ activityPayload a = activityPayload activity ∧
      a.logical = activity.logical := by
  have removed := removeLogical_removed activity state.subagents
  unfold replaced at h
  generalize removeLogical activity state.subagents = pair at h removed
  rcases mem_append.mp h with old | new
  · cases removed with
    | absent => exact .inl old
    | found before after existing split same =>
      rw [split]
      refine .inl ?_
      rcases mem_append.mp old with front | back
      · exact mem_append_left _ front
      · exact mem_append_right _ (mem_cons_of_mem _ back)
  · cases mem_singleton.mp new
    exact .inr ⟨rfl,rfl⟩

theorem replaced_keeps {activity a : FactorySubagentActivity} {state : FactoryState}
    (h : a ∈ state.subagents) :
    a ∈ replaced activity state ∨ ∃ b ∈ replaced activity state, b.logical = a.logical := by
  have removed := removeLogical_removed activity state.subagents
  unfold replaced
  generalize removeLogical activity state.subagents = pair at removed
  cases removed with
  | absent => exact .inl (mem_append_left _ h)
  | found before after existing split same =>
    rw [split] at h
    rcases mem_append.mp h with front | back
    · exact .inl (mem_append_left _ (mem_append_left _ front))
    · rcases mem_cons.mp back with rfl | later
      · exact .inr ⟨_,mem_append_right _ mem_cons_self,same.symm⟩
      · exact .inl (mem_append_left _ (mem_append_right _ later))

theorem replaced_created {b : FactorySubagentActivity} (h : b ∈ replaced activity state)
    (known : ∃ a ∈ state.subagents, a.logical = b.logical) :
    ∃ a ∈ state.subagents, a.logical = b.logical ∧ a.createdAt = b.createdAt := by
  have removed := removeLogical_removed activity state.subagents
  unfold replaced at h
  generalize removeLogical activity state.subagents = pair at h removed
  cases removed with
  | absent none_same =>
    rcases mem_append.mp h with old | new
    · exact ⟨b,old,rfl,rfl⟩
    · cases mem_singleton.mp new
      obtain ⟨a,member,same⟩ := known
      exact absurd same (none_same a member)
  | found before after existing split same =>
    have member : existing ∈ state.subagents := by
      rw [split]
      exact mem_append_right _ mem_cons_self
    rcases mem_append.mp h with old | new
    · refine ⟨b,?_,rfl,rfl⟩
      rw [split]
      rcases mem_append.mp old with front | back
      · exact mem_append_left _ front
      · exact mem_append_right _ (mem_cons_of_mem _ back)
    · cases mem_singleton.mp new
      exact ⟨existing,member,same,rfl⟩

theorem count_replacement (activity : FactorySubagentActivity) (createdAt : String)
    (key : String × String × String) :
    [{ activity with createdAt := createdAt }].countP (fun a => a.logical = key) =
      if activity.logical = key then 1 else 0 := by
  have same : ({ activity with createdAt := createdAt } : FactorySubagentActivity).logical =
      activity.logical := rfl
  simp [countP_singleton,same]

theorem replaced_count (activity : FactorySubagentActivity) (state : FactoryState)
    (key : String × String × String) :
    (replaced activity state).countP (fun a => a.logical = key) ≤ max 1 (state.entries key) := by
  have removed := removeLogical_removed activity state.subagents
  unfold replaced FactoryState.entries
  generalize removeLogical activity state.subagents = pair at removed
  cases removed with
  | absent none_same =>
    simp only [countP_append,count_replacement]
    by_cases own : activity.logical = key
    · have zero : state.subagents.countP (fun a => a.logical = key) = 0 :=
        countP_eq_zero.mpr fun a member same =>
          none_same a member ((of_decide_eq_true same).trans own.symm)
      rw [zero,if_pos own]
      exact Nat.le_max_left _ _
    · rw [if_neg own]
      exact Nat.le_max_right _ _
  | found before after existing split same =>
    have counted : (existing :: after).countP (fun a => a.logical = key) =
        after.countP (fun a => a.logical = key) + if activity.logical = key then 1 else 0 := by
      simp [countP_cons,same]
    rw [split]
    simp only [countP_append,count_replacement,counted]
    omega

end Extension
