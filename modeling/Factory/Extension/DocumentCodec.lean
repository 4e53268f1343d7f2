import Factory.Extension.StateDocument
import Factory.Library.Assoc

namespace Extension

open Json Serde Result List FactoryStateDocument ReviewHistoryDocument

def FactoryReviewReport.InRange (report : FactoryReviewReport) : Prop :=
  report.generation ≤ u64Max

structure FactoryReviewRecoveryBaseline.InRange (baseline : FactoryReviewRecoveryBaseline) :
    Prop where
  revision : baseline.revision ≤ u64Max
  review : ∀ report ∈ baseline.review, report.InRange
  reviewHistory : ∀ cycle ∈ baseline.reviewHistory, cycle.review.InRange

structure FactoryState.InRange (state : FactoryState) : Prop where
  revision : state.revision ≤ u64Max
  review : ∀ report ∈ state.review, report.InRange
  reviewHistory : ∀ cycle ∈ state.reviewHistory, cycle.review.InRange
  subagentHistory : ∀ history ∈ state.subagentHistory, history.latestSequence ≤ u64Max
  reviewRecovery : ∀ baseline ∈ state.reviewRecovery, baseline.InRange

@[simp] theorem FactorySubagentHistorySource.fromValue_wireName
    (source : FactorySubagentHistorySource) : fromValue (.string source.wireName) = .ok source := by
  cases source
  rfl

@[simp] theorem FactorySubagentTool.fromValue_wireName (tool : FactorySubagentTool) :
    fromValue (.string tool.wireName) = .ok tool := by
  cases tool <;> rfl

@[simp] theorem FactorySubagentToolCallStatus.fromValue_wireName
    (status : FactorySubagentToolCallStatus) :
    fromValue (.string status.wireName) = .ok status := by
  cases status <;> rfl

@[simp] theorem FactorySubagentStatus.fromValue_wireName (status : FactorySubagentStatus) :
    fromValue (.string status.wireName) = .ok status := by
  cases status <;> rfl

@[simp] theorem FactoryProgressStatus.fromValue_wireName (status : FactoryProgressStatus) :
    fromValue (.string status.wireName) = .ok status := by
  cases status <;> rfl

@[simp] theorem FactoryReviewVerdict.fromValue_wireName (verdict : FactoryReviewVerdict) :
    fromValue (.string verdict.wireName) = .ok verdict := by
  cases verdict <;> rfl

@[simp] theorem FactoryFindingSeverity.fromValue_wireName (severity : FactoryFindingSeverity) :
    fromValue (.string severity.wireName) = .ok severity := by
  cases severity <;> rfl

@[simp] theorem FactoryRemediationDisposition.fromValue_wireName
    (disposition : FactoryRemediationDisposition) :
    fromValue (.string disposition.wireName) = .ok disposition := by
  cases disposition <;> rfl

theorem FactorySubagentState.fromValue_toValue (state : FactorySubagentState) :
    fromValue state.toValue = .ok state := by
  simp [fromValue,toValue,field,okOr,nullable]

theorem FactorySubagentActivity.fromValue_toValue (activity : FactorySubagentActivity) :
    fromValue activity.toValue = .ok activity := by
  have agents : list FactorySubagentState.fromValue
      (.array (activity.agents.map FactorySubagentState.toValue)) = .ok activity.agents :=
    list_array fun agent _ => agent.fromValue_toValue
  simp [fromValue,toValue,field,okOr,nullable,agents]

theorem FactorySubagentHistory.fromValue_toValue {history : FactorySubagentHistory}
    (small : history.latestSequence ≤ u64Max) : fromValue history.toValue = .ok history := by
  simp [fromValue,toValue,field,okOr,u64_unsigned small]

theorem FactoryReviewFinding.fromValue_toValue (finding : FactoryReviewFinding) :
    fromValue finding.toValue = .ok finding := by
  simp [fromValue,toValue,field,okOr]

theorem FactoryReviewReport.fromValue_toValue {report : FactoryReviewReport}
    (small : report.InRange) : fromValue report.toValue = .ok report := by
  have findings : list FactoryReviewFinding.fromValue
      (.array (report.findings.map FactoryReviewFinding.toValue)) = .ok report.findings :=
    list_array fun finding _ => finding.fromValue_toValue
  simp [fromValue,toValue,field,okOr,defaulted,nullable,findings,u64_unsigned small]

theorem FactoryRemediationRecord.fromValue_toValue (record : FactoryRemediationRecord) :
    fromValue record.toValue = .ok record := by
  simp [fromValue,toValue,field,okOr]

@[simp] theorem list_remediations (records : List FactoryRemediationRecord) :
    list FactoryRemediationRecord.fromValue
      (.array (records.map FactoryRemediationRecord.toValue)) = .ok records :=
  list_array fun record _ => record.fromValue_toValue

theorem FactoryReviewCycle.fromValue_toValue {cycle : FactoryReviewCycle}
    (small : cycle.review.InRange) : fromValue cycle.toValue = .ok cycle := by
  simp [fromValue,toValue,field,okOr,FactoryReviewReport.fromValue_toValue small]

theorem list_cycles {cycles : List FactoryReviewCycle}
    (small : ∀ cycle ∈ cycles, cycle.review.InRange) :
    list FactoryReviewCycle.fromValue (.array (cycles.map FactoryReviewCycle.toValue)) =
      .ok cycles :=
  list_array fun cycle listed => FactoryReviewCycle.fromValue_toValue (small cycle listed)

theorem FactoryReviewRecoveryBaseline.fromValue_toValue {baseline : FactoryReviewRecoveryBaseline}
    (small : baseline.InRange) : fromValue baseline.toValue = .ok baseline := by
  have review : option FactoryReviewReport.fromValue
      (optionalValue FactoryReviewReport.toValue baseline.review) = .ok baseline.review :=
    option_optionalValue (fun _ _ => nofun) fun report held =>
      FactoryReviewReport.fromValue_toValue (small.review report held)
  simp [fromValue,toValue,field,okOr,nullable,review,u64_unsigned small.revision,
    list_cycles small.reviewHistory]

theorem WorkUnitDefinition.fromValue_toValue (definition : WorkUnitDefinition) :
    fromValue definition.toValue = .ok definition := by
  simp [fromValue,toValue,field,okOr]

theorem WorkUnitProgress.fromValue_toValue (progress : WorkUnitProgress) :
    fromValue progress.toValue = .ok progress := by
  simp [fromValue,toValue,field,okOr,nullable]

theorem DecompositionDocument.fromValue_toValue {document : DecompositionDocument}
    (small : document.revision ≤ u64Max) : fromValue document.toValue = .ok document := by
  have workUnits : list WorkUnitDefinition.fromValue
      (.array (document.workUnits.map WorkUnitDefinition.toValue)) = .ok document.workUnits :=
    list_array fun definition _ => definition.fromValue_toValue
  simp [fromValue,toValue,field,okOr,workUnits,u64_unsigned small]

theorem ProgressDocument.fromValue_toValue (document : ProgressDocument) :
    fromValue document.toValue = .ok document := by
  have workUnits : list WorkUnitProgress.fromValue
      (.array (document.workUnits.map WorkUnitProgress.toValue)) = .ok document.workUnits :=
    list_array fun progress _ => progress.fromValue_toValue
  simp [fromValue,toValue,field,okOr,workUnits]

theorem RemediationDocument.fromValue_toValue (document : RemediationDocument) :
    fromValue document.toValue = .ok document := by
  simp [fromValue,toValue,field,okOr]

theorem ReviewHistoryDocument.fromValue_toValue {document : ReviewHistoryDocument}
    (small : ∀ cycle ∈ document.cycles, cycle.review.InRange) :
    fromValue document.toValue = .ok document := by
  simp [fromValue,toValue,field,okOr,list_cycles small]

theorem SubagentsDocument.fromValue_toValue {document : SubagentsDocument}
    (small : ∀ history ∈ document.history, history.latestSequence ≤ u64Max) :
    fromValue document.toValue = .ok document := by
  have activities : list FactorySubagentActivity.fromValue
      (.array (document.activities.map FactorySubagentActivity.toValue)) =
        .ok document.activities :=
    list_array fun activity _ => activity.fromValue_toValue
  have history : option FactorySubagentHistory.fromValue
      ((document.history.map FactorySubagentHistory.toValue).getD .null) = .ok document.history :=
    option_optionalValue (fun _ _ => nofun) fun held stored =>
      FactorySubagentHistory.fromValue_toValue (small held stored)
  simp [fromValue,toValue,field,okOr,nullable,activities,history]

theorem contributed_map {α : Type} {contributor : String} {decode : Decoder α} {encode : α → Value}
    {value : Option α} (each : ∀ x ∈ value, decode (encode x) = .ok x) :
    contributed contributor decode (value.map encode) = .ok value := by
  cases value with
  | none => rfl
  | some x =>
    rw [Option.map_some,contributed,fromContributor,each x rfl]
    rfl

variable {definitions : List WorkUnitDefinition} {progress : List WorkUnitProgress}
  {known left : List (String × WorkUnitProgress)} {units : List FactoryWorkUnit}

theorem progressById_ok (entries : List WorkUnitProgress)
    (known result : List (String × WorkUnitProgress)) :
    progressById entries known = .ok result ↔
      result = (entries.map (fun entry => (entry.id, entry))).reverse ++ known ∧
        (entries.map (·.id)).Nodup ∧ ∀ entry ∈ entries, entry.id ∉ known.map Prod.fst := by
  induction entries generalizing known with
  | nil => simp [progressById,eq_comm]
  | cons entry rest ih =>
    simp only [progressById,bind_ok,ensure_ok,exists_const,ih]
    simp only [map_cons,mem_cons,not_or,nodup_cons,mem_map,
      forall_eq_or_imp,reverse_cons,append_assoc,singleton_append]
    constructor
    · rintro ⟨fresh,rfl,distinct,later⟩
      refine ⟨rfl,⟨?_,distinct⟩,fresh,fun other listed => (later other listed).2⟩
      rintro ⟨other,listed,same⟩
      exact (later other listed).1 same
    · rintro ⟨rfl,⟨single,distinct⟩,fresh,later⟩
      exact ⟨fresh,rfl,distinct,fun other listed =>
        ⟨fun same => single ⟨other,listed,same⟩,later other listed⟩⟩

theorem lookup_remove (id other : String) (known : List (String × WorkUnitProgress)) :
    (known.filter (fun entry => entry.1 ≠ id)).lookup other =
      if other = id then none else known.lookup other := by
  induction known with
  | nil => simp
  | cons entry rest ih =>
    obtain ⟨key,value⟩ := entry
    by_cases same : other = key
    · subst same
      by_cases removed : other = id
      · simpa [removed] using ih
      · simp [removed]
    · have miss : (other == key) = false := beq_eq_false_iff_ne.mpr same
      have skip : ((key, value) :: rest).lookup other = rest.lookup other := by
        rw [lookup_cons,miss]
      by_cases removed : key = id
      · rw [skip,← ih,filter_cons_of_neg (by simp [removed])]
      · rw [skip,← ih,filter_cons_of_pos (by simp [removed]),lookup_cons,miss]

def WorkUnitDefinition.withProgress (definition : WorkUnitDefinition)
    (progress : WorkUnitProgress) : FactoryWorkUnit :=
  ⟨definition.id, definition.title, definition.description, definition.dependsOn,
    progress.status, progress.progressSummary⟩

def Joins (known : List (String × WorkUnitProgress)) (definition : WorkUnitDefinition)
    (unit : FactoryWorkUnit) : Prop :=
  ∃ progress, known.lookup definition.id = some progress ∧ unit = definition.withProgress progress

theorem joins_remove {id : String} :
    List.Forall₂ (Joins (known.filter (fun entry => entry.1 ≠ id))) definitions units ↔
      (∀ definition ∈ definitions, definition.id ≠ id) ∧
        List.Forall₂ (Joins known) definitions units := by
  have single : ∀ definition unit, Joins (known.filter (fun entry => entry.1 ≠ id)) definition
      unit ↔ definition.id ≠ id ∧ Joins known definition unit := by
    intro definition unit
    simp only [Joins,lookup_remove]
    by_cases same : definition.id = id
    · simp [same]
    · simp [same]
  rw [← forall₂_and_left]
  exact ⟨.imp fun _ _ => (single _ _).mp,.imp fun _ _ => (single _ _).mpr⟩

theorem joinUnits_ok :
    joinUnits definitions known = .ok (units, left) ↔
      (definitions.map (·.id)).Nodup ∧
        left = known.filter (fun entry => entry.1 ∉ definitions.map (·.id)) ∧
        List.Forall₂ (Joins known) definitions units := by
  induction definitions generalizing known units left with
  | nil =>
    simp only [joinUnits,Except.ok.injEq,Prod.mk.injEq,map_nil,nodup_nil,
      not_mem_nil,not_false_eq_true,decide_true,filter_true,true_and,
      forall₂_nil_left_iff]
    exact ⟨fun h => ⟨h.2.symm,h.1.symm⟩,fun h => ⟨h.2.symm,h.1.symm⟩⟩
  | cons definition rest ih =>
    have narrowed : (known.filter (fun entry => entry.1 ≠ definition.id)).filter
        (fun entry => entry.1 ∉ rest.map (·.id)) =
        known.filter (fun entry => entry.1 ∉ (definition :: rest).map (·.id)) := by
      rw [filter_filter]
      refine filter_congr fun entry _ => ?_
      by_cases same : entry.1 = definition.id
      · simp [same]
      · simp [same]
    simp only [joinUnits,bind_ok,okOr_ok,pure_ok,Prod.exists,Prod.mk.injEq]
    constructor
    · rintro ⟨found,stored,later,remaining,tail,rfl,rfl⟩
      obtain ⟨distinct,rest_left,joined⟩ := ih.mp tail
      obtain ⟨others,joined⟩ := joins_remove.mp joined
      refine ⟨nodup_cons.mpr ⟨fun listed => ?_,distinct⟩,rest_left.trans narrowed,
        .cons ⟨found,stored,rfl⟩ joined⟩
      obtain ⟨other,hit,same⟩ := mem_map.mp listed
      exact others other hit same
    · rintro ⟨distinct,rfl,joined⟩
      obtain ⟨single,distinct⟩ := nodup_cons.mp distinct
      cases joined with
      | cons first joined =>
        obtain ⟨found,stored,rfl⟩ := first
        have others : ∀ other ∈ rest, other.id ≠ definition.id := fun other listed same =>
          single (mem_map.mpr ⟨other,listed,same⟩)
        exact ⟨found,stored,_,_,ih.mpr ⟨distinct,rfl,joins_remove.mpr ⟨others,joined⟩⟩,
          rfl,narrowed⟩

structure Matched (definitions : List WorkUnitDefinition) (progress : List WorkUnitProgress) :
    Prop where
  distinct : (progress.map (·.id)).Nodup
  perm : (definitions.map (·.id)).Perm (progress.map (·.id))

theorem keys_known (progress : List WorkUnitProgress) :
    ((progress.map (fun entry : WorkUnitProgress => (entry.id, entry))).reverse ++ []).map
        Prod.fst =
      (progress.map (·.id)).reverse := by
  rw [append_nil,map_reverse,map_map]
  rfl

theorem mem_keys_of_lookup {id : String} {found : WorkUnitProgress}
    (stored : known.lookup id = some found) : id ∈ known.map Prod.fst := by
  obtain ⟨front,back,rfl,_⟩ := lookup_eq_some_iff.mp stored
  simp

theorem Joins.forall_mem {definition : WorkUnitDefinition}
    (joined : List.Forall₂ (Joins known) definitions units) (listed : definition ∈ definitions) :
    ∃ found, known.lookup definition.id = some found := by
  have implied : List.Forall₂ (fun definition (_ : FactoryWorkUnit) =>
      (∃ found, known.lookup definition.id = some found) ∧ True) definitions units :=
    joined.imp fun _ _ ⟨found,stored,_⟩ => ⟨⟨found,stored⟩,trivial⟩
  exact ((forall₂_and_left _ _).mp implied).1 definition listed

variable {decomposition : DecompositionDocument} {document : ProgressDocument}

theorem joined_matched (h : joined decomposition document = .ok units) :
    Matched decomposition.workUnits document.workUnits := by
  simp only [joined,bind_ok,ensure_ok,pure_ok,exists_const,
    Prod.exists] at h
  obtain ⟨entries,collected,_,left,tail,nothing,rfl⟩ := h
  obtain ⟨rfl,distinct,_⟩ := (progressById_ok _ _ _).mp collected
  obtain ⟨single,remaining,joined⟩ := joinUnits_ok.mp tail
  rw [nothing] at remaining
  refine ⟨distinct,(perm_ext_iff_of_nodup single distinct).mpr fun id => ⟨fun named => ?_,
    fun named => ?_⟩⟩
  · obtain ⟨definition,listed,rfl⟩ := mem_map.mp named
    obtain ⟨found,stored⟩ := Joins.forall_mem joined listed
    have key := mem_keys_of_lookup stored
    rw [keys_known] at key
    exact mem_reverse.mp key
  · by_contra unknown
    obtain ⟨entry,listed,rfl⟩ := mem_map.mp named
    have kept : (entry.id, entry) ∈ (([] : List (String × WorkUnitProgress))) := by
      rw [remaining]
      refine mem_filter.mpr ⟨?_,by simpa using unknown⟩
      simp [listed]
    cases kept

def Carries (progress : List WorkUnitProgress) (definition : WorkUnitDefinition)
    (unit : FactoryWorkUnit) : Prop :=
  ∃ entry ∈ progress, entry.id = definition.id ∧ unit = definition.withProgress entry

theorem joined_carries (h : joined decomposition document = .ok units) :
    List.Forall₂ (Carries document.workUnits) decomposition.workUnits units := by
  simp only [joined,bind_ok,ensure_ok,pure_ok,exists_const,
    Prod.exists] at h
  obtain ⟨entries,collected,_,left,tail,_,rfl⟩ := h
  obtain ⟨rfl,_,_⟩ := (progressById_ok _ _ _).mp collected
  obtain ⟨_,_,joined⟩ := joinUnits_ok.mp tail
  refine joined.imp fun definition unit => ?_
  rintro ⟨found,stored,rfl⟩
  obtain ⟨front,back,split,-⟩ := lookup_eq_some_iff.mp stored
  have listed : (definition.id, found) ∈
      (document.workUnits.map (fun entry => (entry.id, entry))).reverse ++ [] := by
    rw [split]
    exact mem_append_right _ mem_cons_self
  rw [append_nil,mem_reverse] at listed
  obtain ⟨entry,held,same⟩ := mem_map.mp listed
  obtain ⟨sameId,rfl⟩ := Prod.mk.inj same
  exact ⟨entry,held,sameId,rfl⟩

theorem joined_units (distinct : (units.map (·.id)).Nodup) (revision : Nat) :
    joined
        ⟨revision, units.map (fun unit => ⟨unit.id, unit.title, unit.description, unit.dependsOn⟩)⟩
        ⟨units.map (fun unit => ⟨unit.id, unit.status, unit.progressSummary⟩)⟩ = .ok units := by
  have ids : (units.map (fun unit : FactoryWorkUnit =>
      (⟨unit.id,unit.status,unit.progressSummary⟩ : WorkUnitProgress))).map (·.id) =
      units.map (·.id) := by
    rw [map_map]
    rfl
  have names : (units.map (fun unit : FactoryWorkUnit =>
      (⟨unit.id,unit.title,unit.description,unit.dependsOn⟩ : WorkUnitDefinition))).map (·.id) =
      units.map (·.id) := by
    rw [map_map]
    rfl
  generalize stored : ((units.map (fun unit : FactoryWorkUnit =>
      (⟨unit.id,unit.status,unit.progressSummary⟩ : WorkUnitProgress))).map
        (fun entry => (entry.id, entry))).reverse ++ [] = known
  have keys : known.map Prod.fst = (units.map (·.id)).reverse := by
    rw [← stored,keys_known,ids]
  have looked : ∀ unit ∈ units, known.lookup unit.id =
      some ⟨unit.id,unit.status,unit.progressSummary⟩ := fun unit listed => by
    refine @Assoc.lookup_of_nodup _ _ _ known (unit.id, ⟨unit.id,unit.status,
      unit.progressSummary⟩) ?_ ?_
    · rw [keys]
      exact nodup_reverse.mpr distinct
    · rw [← stored]
      simpa using ⟨unit,listed,rfl,rfl,rfl⟩
  simp only [joined,bind_ok,ensure_ok,pure_ok,exists_const,Prod.exists]
  refine ⟨known,(progressById_ok _ _ _).mpr ⟨stored.symm,ids.symm ▸ distinct,by simp⟩,units,[],
    joinUnits_ok.mpr ⟨names.symm ▸ distinct,?_,?_⟩,rfl,rfl⟩
  · rw [names]
    refine (filter_eq_nil_iff.mpr fun entry held => ?_).symm
    have key : entry.1 ∈ known.map Prod.fst := mem_map_of_mem held
    rw [keys,mem_reverse] at key
    simpa using key
  · refine forall₂_map_left_iff.mpr (forall₂_same.mpr fun unit listed => ?_)
    exact ⟨_,looked unit listed,rfl⟩

namespace FactoryStateDocument

variable {state : FactoryState} {document : FactoryStateDocument}

theorem fromContributor_ok {α : Type} {contributor : String} {decode : Decoder α} {value : Value}
    {decoded : α} (h : decode value = .ok decoded) :
    fromContributor contributor decode value = .ok decoded := by
  rw [fromContributor,h]
  rfl

theorem intoState_fromState (small : state.InRange)
    (distinct : (state.workUnits.map (·.id)).Nodup) :
    (fromState state).intoState = .ok state := by
  have review : contributed "review" FactoryReviewReport.fromValue
      (state.review.map FactoryReviewReport.toValue) = .ok state.review :=
    contributed_map fun report held =>
      FactoryReviewReport.fromValue_toValue (small.review report held)
  have remediation : contributed "remediation" RemediationDocument.fromValue
      (some (RemediationDocument.toValue ⟨state.remediations⟩)) = .ok (some ⟨state.remediations⟩) :=
    @contributed_map _ _ _ RemediationDocument.toValue (some ⟨state.remediations⟩)
      fun held _ => held.fromValue_toValue
  have reviewHistory : contributed "review history" fromValue
      (some (toValue ⟨state.reviewHistory⟩)) =
        .ok (some ⟨state.reviewHistory⟩) := by
    refine @contributed_map _ _ _ toValue (some ⟨state.reviewHistory⟩) ?_
    rintro held ⟨⟩
    exact fromValue_toValue small.reviewHistory
  have subagents : contributed "subagents" SubagentsDocument.fromValue
      (some (SubagentsDocument.toValue ⟨state.subagents,state.subagentHistory⟩)) =
        .ok (some ⟨state.subagents,state.subagentHistory⟩) := by
    refine @contributed_map _ _ _ SubagentsDocument.toValue
      (some ⟨state.subagents,state.subagentHistory⟩) ?_
    rintro held ⟨⟩
    exact SubagentsDocument.fromValue_toValue small.subagentHistory
  have reviewRecovery : contributed "review recovery" FactoryReviewRecoveryBaseline.fromValue
      (state.reviewRecovery.map FactoryReviewRecoveryBaseline.toValue) = .ok state.reviewRecovery :=
    contributed_map fun baseline held =>
      FactoryReviewRecoveryBaseline.fromValue_toValue (small.reviewRecovery baseline held)
  simp only [intoState,fromState,bind_ok,okOr_ok,pure_ok]
  exact ⟨_,fromContributor_ok (DecompositionDocument.fromValue_toValue small.revision),_,rfl,_,
    fromContributor_ok (ProgressDocument.fromValue_toValue _),_,
    joined_units distinct state.revision,_,review,_,remediation,_,reviewHistory,_,subagents,
    _,reviewRecovery,rfl⟩

structure Decodes (document : FactoryStateDocument) (definitions : List WorkUnitDefinition)
    (progress : List WorkUnitProgress) : Prop where
  decomposition : ∃ value revision, document.decomposition = some value ∧
    DecompositionDocument.fromValue value = .ok ⟨revision, definitions⟩
  progress : ∃ value, document.progress = some value ∧
    ProgressDocument.fromValue value = .ok ⟨progress⟩

theorem intoState_joined (decodes : document.Decodes definitions progress)
    (h : document.intoState = .ok state) :
    ∃ revision, joined ⟨revision, definitions⟩ ⟨progress⟩ = .ok state.workUnits := by
  obtain ⟨⟨value,revision,stored,decoded⟩,entries,held,read⟩ := decodes
  simp only [intoState,stored,bind_ok,okOr_ok,fromContributor_ok decoded] at h
  obtain ⟨_,same,payload,found,_,entered,_,joined,_,_,_,_,_,_,_,_,_,_,built⟩ := h
  cases same
  obtain rfl : entries = payload := Option.some.inj (held.symm.trans found)
  rw [fromContributor_ok read] at entered
  cases entered
  cases built
  exact ⟨revision,joined⟩

theorem intoState_unmatched (decodes : document.Decodes definitions progress)
    (mismatch : ¬ Matched definitions progress) : ∃ error, document.intoState = .error error := by
  cases outcome : document.intoState with
  | error error => exact ⟨error,rfl⟩
  | ok state =>
    obtain ⟨_,joined⟩ := intoState_joined decodes outcome
    exact absurd (joined_matched joined) mismatch

theorem fromState_decodes (small : state.InRange) : (fromState state).Decodes
    (state.workUnits.map (fun unit => ⟨unit.id, unit.title, unit.description, unit.dependsOn⟩))
    (state.workUnits.map (fun unit => ⟨unit.id, unit.status, unit.progressSummary⟩)) :=
  ⟨⟨_,_,rfl,DecompositionDocument.fromValue_toValue small.revision⟩,
    ⟨_,rfl,ProgressDocument.fromValue_toValue _⟩⟩

theorem document_round_trip :
    (∀ state : FactoryState, state.InRange → (state.workUnits.map (·.id)).Nodup →
      (fromState state).intoState = .ok state) ∧
    (∀ state : FactoryState, state.InRange → ¬ (state.workUnits.map (·.id)).Nodup →
      ∃ error, (fromState state).intoState = .error error) ∧
    ∀ (document : FactoryStateDocument) (definitions : List WorkUnitDefinition)
      (progress : List WorkUnitProgress), document.Decodes definitions progress →
      (¬ Matched definitions progress → ∃ error, document.intoState = .error error) ∧
        ∀ state, document.intoState = .ok state →
          List.Forall₂ (Carries progress) definitions state.workUnits := by
  refine ⟨fun state small distinct => intoState_fromState small distinct,
    fun state small repeated => ?_,fun document definitions progress decodes =>
      ⟨intoState_unmatched decodes,fun state outcome => ?_⟩⟩
  · refine intoState_unmatched (fromState_decodes small) fun matched => repeated ?_
    have distinct := matched.distinct
    rw [map_map] at distinct
    exact distinct
  · obtain ⟨_,joined⟩ := intoState_joined decodes outcome
    exact joined_carries joined

def Sample.progressing : FactoryState :=
  { FactoryState.default with
    revision := 3
    workUnits := [⟨"b", "B", "second", ["a"], .pending, none⟩,
      ⟨"a", "A", "first", [], .completed, some "done"⟩]
    review := some ⟨1, none, some "reviewer", none, none, some "review", .approve, "fine", []⟩ }

theorem document_round_trip_progressing :
    (fromState Sample.progressing).intoState = .ok Sample.progressing := by
  refine document_round_trip.1 Sample.progressing ⟨by decide,?_,?_,?_,?_⟩ (by decide)
  · rintro report ⟨⟩
    exact (by decide : 1 ≤ u64Max)
  · exact fun cycle listed => absurd listed not_mem_nil
  · rintro history ⟨⟩
  · rintro baseline ⟨⟩

end FactoryStateDocument

end Extension
