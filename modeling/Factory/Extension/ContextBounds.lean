import Mathlib.Data.Nat.Digits.Defs
import Factory.Extension.CurrentActivities

namespace Extension

open Json Serde JsonCompact List Nat

section Lengths

theorem length_truncateChars (value : String) {limit : Nat} (wide : 3 ≤ limit) :
    (truncateChars value limit).toList.length ≤ limit := by
  unfold truncateChars
  split
  · assumption
  · have dots : "...".toList.length = 3 := rfl
    rw [String.toList_ofList,length_append,length_take,length_take,dots]
    omega

theorem length_unsigned {n : Nat} (small : n ≤ u64Max) : (compact (unsigned n)).length ≤ 20 := by
  have bound : n < 10 ^ 20 := lt_of_le_of_lt small (by decide)
  have digits := toDigits_length 10 n 20 (by decide) bound
  have text : compact (unsigned n) = (Nat.repr n).toList := rfl
  rw [text,Nat.repr,String.toList_ofList]
  exact digits

theorem length_string (s : String) : (compact (.string s)).length ≤ 6 * s.toList.length + 2 :=
  length_quote s

theorem length_bool (b : Bool) : (compact (.bool b)).length ≤ 5 := by
  cases b <;> decide

theorem length_fields (fields : List (String × Value)) :
    (compact (.object fields)).length ≤
      (fields.map (fun field => 6 * field.1.toList.length + 4 + (compact field.2).length)).sum +
        2 := by
  have inside : (compactFields fields).length ≤
      (fields.map (fun field =>
        6 * field.1.toList.length + 4 + (compact field.2).length)).sum := by
    induction fields with
    | nil => exact le_refl _
    | cons field rest ih =>
      obtain ⟨k,x⟩ := field
      have name := length_quote k
      have split := length_compactFields_cons k x rest
      simp only [map_cons,sum_cons]
      omega
  have whole : (compact (.object fields)).length = (compactFields fields).length + 2 := by
    simp [compact]
  omega

theorem length_history {history : Option FactorySubagentHistory}
    (small : ∀ held ∈ history, held.latestSequence ≤ u64Max) :
    (compact (optionalValue FactorySubagentHistory.toValue
      (boundedSubagentHistory history))).length ≤ 1200 := by
  cases history with
  | none => decide
  | some held =>
    have sequence := length_unsigned (small held rfl)
    have kind := length_string (truncateChars held.eventKind maxIdentifierChars)
    have short : (truncateChars held.eventKind maxIdentifierChars).toList.length ≤ 128 :=
      length_truncateChars held.eventKind (by decide)
    have source : (compact (.string held.source.wireName)).length ≤ 134 := by
      cases held.source
      decide
    have names : "source".toList.length = 6 ∧ "event_kind".toList.length = 10 ∧
        "latest_sequence".toList.length = 15 := by decide
    refine (length_fields _).trans ?_
    simp only [map_cons,map_nil,sum_cons,sum_nil]
    omega

structure CountsInRange (state : FactoryState) : Prop where
  revision : state.revision ≤ u64Max
  subagentHistory : ∀ held ∈ state.subagentHistory, held.latestSequence ≤ u64Max
  workUnits : state.workUnits.length ≤ u64Max
  findings : ∀ report ∈ state.review, report.findings.length ≤ u64Max
  remediations : state.remediations.length ≤ u64Max
  subagents : state.subagents.length ≤ u64Max

variable {state : FactoryState}

theorem length_minimalContextState (small : CountsInRange state) :
    (compact (minimalContextState state).toValue).length ≤ 2500 := by
  have history := length_history small.subagentHistory
  have revision := length_unsigned small.revision
  have units := length_unsigned small.workUnits
  have findings : (compact (unsigned ((state.review.map (·.findings.length)).getD 0))).length ≤
      20 := by
    refine length_unsigned ?_
    cases held : state.review with
    | none => exact zero_le _
    | some report => exact small.findings report held
  have remediations := length_unsigned small.remediations
  have subagents := length_unsigned small.subagents
  have omitted := length_bool state.review.isSome
  have empty : (compact (.array ([] : List Value))).length = 2 ∧
      (compact (optionalValue FactoryReviewReport.toValue none)).length = 4 := by decide
  have names : "revision".toList.length = 8 ∧ "work_units".toList.length = 10 ∧
      "review".toList.length = 6 ∧ "remediations".toList.length = 12 ∧
      "subagents".toList.length = 9 ∧ "subagent_history".toList.length = 16 ∧
      "omitted_work_units".toList.length = 18 ∧ "omitted_findings".toList.length = 16 ∧
      "omitted_remediations".toList.length = 20 ∧
      "omitted_subagent_activities".toList.length = 27 ∧
      "review_omitted".toList.length = 14 := by decide
  refine (length_fields _).trans ?_
  simp only [minimalContextState,map_cons,map_nil,sum_cons,sum_nil]
  omega

theorem length_minimalBody {threadId : String} (short : threadId.toList.length ≤ 4096)
    (durability : FactoryStateDurability) (small : CountsInRange state) :
    (contextBody threadId durability (minimalContextState state)).toList.length ≤
      maxContextChars := by
  have inner := length_minimalContextState small
  have thread := length_string threadId
  have source : (compact (.string "factory-native-extension")).length ≤ 26 := by decide
  have place : (compact (.string durability.text)).length ≤ 16 := by
    cases durability <;> decide
  have names : "source".toList.length = 6 ∧ "thread_id".toList.length = 9 ∧
      "durability".toList.length = 10 ∧ "state".toList.length = 5 := by decide
  rw [contextBody,JsonCompact.render,String.toList_ofList]
  refine (length_fields _).trans ?_
  simp only [map_cons,map_nil,sum_cons,sum_nil,maxContextChars]
  omega

end Lengths

structure Accounts (state : FactoryState) (context : FactoryContextState) : Prop where
  workUnits : context.workUnits.length + context.omittedWorkUnits = state.workUnits.length
  findings : (context.review.map (·.findings.length)).getD 0 + context.omittedFindings =
    (state.review.map (·.findings.length)).getD 0
  remediations :
    context.remediations.length + context.omittedRemediations = state.remediations.length
  subagents :
    context.subagents.length + context.omittedSubagentActivities = state.subagents.length

structure ShowsIncomplete (units : List FactoryWorkUnit) (shown : List FactoryWorkUnit)
    (indices : List Nat) : Prop where
  ordered : indices.Sublist (range units.length)
  projected : ∃ limit textLimit, shown = indices.filterMap (fun index =>
    units[index]?.map (boundedUnit limit textLimit))
  preferred : (∃ index ∈ indices, ∃ unit, units[index]? = some unit ∧ unit.status = .completed) →
    ∀ index unit, units[index]? = some unit → unit.status ≠ .completed → index ∈ indices

section Accounting

variable {state : FactoryState} {units : List FactoryWorkUnit} {index itemLimit textLimit : Nat}

theorem mem_incompleteIndices :
    index ∈ incompleteIndices units ↔
      ∃ unit, units[index]? = some unit ∧ unit.status ≠ .completed := by
  simp only [incompleteIndices,mem_map,mem_filter,Prod.exists,exists_eq_right,
    mem_zipIdx_iff_getElem?,decide_eq_true_eq]

theorem nodup_incompleteIndices (units : List FactoryWorkUnit) :
    (incompleteIndices units).Nodup := by
  refine List.Nodup.sublist (filter_sublist.map Prod.snd) ?_
  rw [zipIdx_map_snd]
  exact nodup_range'

theorem selectedUnits_sublist (units : List FactoryWorkUnit) (limit : Nat) :
    (selectedUnits units limit).Sublist (range units.length) := by
  refine sorted_sublist (selectRecent_nodup (nodup_reverse.mpr
    ((nodup_incompleteIndices units).sublist (take_sublist _ _)))) fun index member => ?_
  rcases selectRecent_subset member with incomplete | recent
  · have listed := mem_of_mem_take (mem_reverse.mp incomplete)
    obtain ⟨unit,found,_⟩ := mem_incompleteIndices.mp listed
    exact mem_range.mpr (List.getElem?_eq_some_iff.mp found).1
  · exact mem_reverse.mp recent

theorem boundedWorkUnits_shows (units : List FactoryWorkUnit) (limit textLimit : Nat) :
    ShowsIncomplete units (boundedWorkUnits units limit textLimit) (selectedUnits units limit) := by
  refine ⟨selectedUnits_sublist units limit,⟨limit,textLimit,rfl⟩,?_⟩
  rintro ⟨shown,listed,done,foundDone,completed⟩ index unit found incomplete
  have own : index ∈ incompleteIndices units := mem_incompleteIndices.mpr ⟨unit,found,incomplete⟩
  by_cases few : (incompleteIndices units).length ≤ limit
  · refine (mem_insertionSort _).mpr (selectRecent_keeps (mem_reverse.mpr ?_))
    rw [take_of_length_le few]
    exact own
  · have full : ((incompleteIndices units).take limit).reverse.length = limit := by
      rw [length_reverse,length_take]
      omega
    have only := (mem_insertionSort _).mp listed
    rw [selectRecent_full _ full] at only
    obtain ⟨other,foundOther,open_⟩ :=
      mem_incompleteIndices.mp (mem_of_mem_take (mem_reverse.mp only))
    cases foundDone.symm.trans foundOther
    exact absurd completed open_

theorem length_picked {α β : Type} {xs : List α} {indices : List Nat} {f : α → β}
    (ordered : indices.Sublist (range xs.length)) :
    (indices.filterMap (fun index => xs[index]?.map f)).length ≤ xs.length := by
  have picked := (length_filterMap_le (fun index => xs[index]?.map f) indices).trans
    ordered.length_le
  rwa [length_range] at picked

theorem projected_accounts (state : FactoryState) (itemLimit textLimit : Nat) :
    Accounts state (projectedContextState state itemLimit textLimit) := by
  have units : (boundedWorkUnits state.workUnits itemLimit textLimit).length ≤
      state.workUnits.length := length_picked (selectedUnits_sublist _ _)
  have agents : (boundedSubagents state.subagents
      (min itemLimit maxContextSubagentActivities) textLimit).length ≤ state.subagents.length :=
    length_picked (selection_sublist _ _)
  refine ⟨add_sub_of_le units,?_,?_,add_sub_of_le agents⟩
  · simp only [projectedContextState]
    cases state.review with
    | none => rfl
    | some report =>
      simp only [boundedReview,Option.map_some,Option.getD_some,length_map,
        length_take]
      omega
  · simp only [projectedContextState,length_map,length_drop]
    omega

theorem minimal_accounts (state : FactoryState) : Accounts state (minimalContextState state) :=
  ⟨zero_add _,zero_add _,zero_add _,zero_add _⟩

theorem minimal_shows (units : List FactoryWorkUnit) : ShowsIncomplete units [] [] :=
  ⟨nil_sublist _,⟨0,0,rfl⟩,fun ⟨_,listed,_⟩ => absurd listed not_mem_nil⟩

end Accounting

structure Describes (threadId : String) (durability : FactoryStateDurability)
    (state : FactoryState) (body : String) : Prop where
  bounded : body.toList.length ≤ maxContextChars
  accounted : ∃ context indices, body = contextBody threadId durability context ∧
    Accounts state context ∧ ShowsIncomplete state.workUnits context.workUnits indices

section Loop

variable {threadId : String} {durability : FactoryStateDurability} {state : FactoryState}

theorem contextLoop_describes (short : threadId.toList.length ≤ 4096) (small : CountsInRange state)
    {rounds itemLimit textLimit : Nat} {body : String}
    (h : contextLoop threadId durability state rounds itemLimit textLimit = some body) :
    Describes threadId durability state body := by
  induction rounds generalizing itemLimit textLimit with
  | zero => cases h
  | succ rounds ih =>
    simp only [contextLoop] at h
    split at h
    · next fits =>
      cases h
      exact ⟨fits,_,_,rfl,projected_accounts state itemLimit textLimit,
        boundedWorkUnits_shows state.workUnits itemLimit textLimit⟩
    · split at h
      · exact ih h
      · split at h
        · exact ih h
        · cases h
          exact ⟨length_minimalBody short durability small,_,_,rfl,minimal_accounts state,
            minimal_shows state.workUnits⟩

theorem contextLoop_returns {rounds itemLimit textLimit texts items : Nat}
    (narrow : textLimit ≤ minContextFieldChars * 2 ^ texts)
    (few : itemLimit ≤ minContextItems * 2 ^ items) (enough : texts + items < rounds) :
    ∃ body, contextLoop threadId durability state rounds itemLimit textLimit = some body := by
  induction rounds generalizing itemLimit textLimit texts items with
  | zero => omega
  | succ rounds ih =>
    simp only [contextLoop]
    split
    · exact ⟨_,rfl⟩
    split
    · next wide =>
      cases texts with
      | zero => omega
      | succ texts =>
        have positive := Nat.one_le_two_pow (n := texts)
        refine @ih itemLimit _ texts items ?_ few (by omega)
        rw [pow_succ] at narrow
        unfold minContextFieldChars at narrow ⊢
        omega
    split
    · next many =>
      cases items with
      | zero => omega
      | succ items =>
        have positive := Nat.one_le_two_pow (n := items)
        refine @ih _ textLimit texts items narrow ?_ (by omega)
        rw [pow_succ] at few
        unfold minContextItems at few ⊢
        omega
    · exact ⟨_,rfl⟩

theorem contextLoop_more {rounds itemLimit textLimit : Nat} {body : String}
    (h : contextLoop threadId durability state rounds itemLimit textLimit = some body)
    (extra : Nat) :
    contextLoop threadId durability state (rounds + extra) itemLimit textLimit = some body := by
  induction rounds generalizing itemLimit textLimit with
  | zero => cases h
  | succ rounds ih =>
    rw [succ_add]
    simp only [contextLoop] at h ⊢
    split at h
    · next fits =>
      rw [if_pos fits]
      exact h
    · next large =>
      rw [if_neg large]
      split at h
      · next wide =>
        rw [if_pos wide]
        exact ih h
      · next narrow =>
        rw [if_neg narrow]
        split at h
        · next many =>
          rw [if_pos many]
          exact ih h
        · next few =>
          rw [if_neg few]
          exact h

end Loop

theorem context_bounded (threadId : String) (short : threadId.toList.length ≤ 4096)
    (durability : FactoryStateDurability) (state : FactoryState) (small : CountsInRange state) :
    ∃ body, (∀ rounds, 8 ≤ rounds →
        boundedContextBody rounds threadId durability state = some body) ∧
      Describes threadId durability state body := by
  obtain ⟨body,returned⟩ : ∃ body, boundedContextBody 8 threadId durability state = some body :=
    @contextLoop_returns threadId durability state 8 maxWorkUnits maxContextFieldChars 4 3
      (by decide) (by decide) (by decide)
  refine ⟨body,fun rounds enough => ?_,contextLoop_describes short small returned⟩
  have later := contextLoop_more returned (rounds - 8)
  rwa [Nat.add_sub_cancel' enough] at later

def busyState : FactoryState :=
  { FactoryState.default with
    workUnits := (range (maxWorkUnits + 1)).map (fun n =>
      ⟨toString n, "unit", "", [], if n < 20 then .completed else .pending, none⟩) }

theorem context_bounded_busy :
    ∃ body, boundedContextBody 8 "thread" .durable busyState = some body ∧
      Describes "thread" .durable busyState body ∧
      body = contextBody "thread" .durable
        (projectedContextState busyState maxWorkUnits maxContextFieldChars) ∧
      (projectedContextState busyState maxWorkUnits maxContextFieldChars).omittedWorkUnits = 1 := by
  obtain ⟨body,returned,describes⟩ := context_bounded "thread" (by decide) .durable busyState
    ⟨by decide,nofun,by decide,nofun,by decide,by decide⟩
  have fits : (contextBody "thread" .durable
      (projectedContextState busyState maxWorkUnits maxContextFieldChars)).toList.length ≤
        maxContextChars := by
    rw [contextBody,JsonCompact.render,String.toList_ofList]
    decide +kernel
  have first := returned 8 (by decide)
  rw [boundedContextBody,contextLoop,if_pos fits] at first
  exact ⟨body,returned 8 (by decide),describes,(Option.some.inj first).symm,by decide +kernel⟩

end Extension
