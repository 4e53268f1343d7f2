import Factory.Runtime.JournalReading

namespace Runtime

open Coordinator Table Result List

def EntryBody.marker : EntryBody → Option (MarkerSlot × TurnRef)
  | .turnAccepted _ role cycle turn => some ((cycle, role.output), turn)
  | .stageCompleted _ role cycle turn _ => some ((cycle, role.output), turn)
  | .observed _ _ | .noted _ _ => none

namespace Journal

structure LastMarker (entries : List Entry) (id : OperationId) (e : Entry) (slot : MarkerSlot)
    (turn : TurnRef) : Prop where
  mem : e ∈ entriesOf entries id
  marker : e.body.marker = some (slot, turn)
  last : ∀ x ∈ entriesOf entries id, ∀ other, x.body.marker = some (slot, other) →
    x.sequence ≤ e.sequence

variable {entries : List Entry} {accepted : Accepted} {turns : List StartedTurn}
  {nextSequence : Nat} {e : Entry} {id : OperationId} {slot : MarkerSlot} {turn : TurnRef}
  {jobId : JobId} {o : OperationRow} {c : Completion}

theorem parse_wireName (role : StageTurnRole) :
    StageOutputTurnRole.parse role.wireName = some role.output := by
  cases role <;> decide

structure ReadsMarker (payload : Json.Value) (slot : MarkerSlot) (turn : TurnRef) : Prop where
  role : (payload.text "role").bind StageOutputTurnRole.parse = some slot.2
  cycle : payload.get "reviewCycle" = some (Serde.unsigned slot.1)
  turnId : payload.text "turnId" = some turn.turnId

theorem marker_reads (h : e.body.marker = some (slot, turn)) :
    ReadsMarker (e.row jobId).payload slot turn := by
  cases body : e.body with
  | turnAccepted stage role cycle active =>
    rw [body] at h
    obtain ⟨rfl,rfl⟩ := Prod.mk.inj (Option.some.inj h)
    have payload : (e.row jobId).payload = correlate
        [("stage", .string stage.asWireName),("role", .string role.wireName),
          ("reviewCycle", Serde.unsigned cycle)] active := by
      simp only [Entry.row,body,EntryBody.payload]
    rw [payload]
    refine ⟨?_,?_,correlate_turnId _ _⟩
    · rw [correlate_text (by decide) (by decide)]
      simpa [Json.Value.text,Json.Value.get,Json.Value.asStr] using parse_wireName role
    · rw [correlate_get (by decide) (by decide)]
      simp [Json.Value.get]
  | stageCompleted stage role cycle active findings =>
    rw [body] at h
    obtain ⟨rfl,rfl⟩ := Prod.mk.inj (Option.some.inj h)
    simp only [Entry.row,body,EntryBody.payload]
    refine ⟨?_,?_,?_⟩
    · simpa [Json.Value.text,Json.Value.get,Json.Value.asStr] using parse_wireName role
    · simp [Json.Value.get]
    · simp [Json.Value.text,Json.Value.get,Json.Value.asStr]
  | observed | noted =>
    rw [body] at h
    contradiction

variable {row : JobEventRow} {pairs : List (MarkerSlot × JobEventRow)}

section Markers

variable (h : ReadsMarker row.payload slot turn) (range : slot.1 ≤ u32Max)

include h range

theorem ReadsMarker.reviewCycle :
    row.reviewCycle = some slot.1 := by
  unfold u32Max at range
  have wide : (slot.1 : Int) ≤ 18446744073709551615 := by omega
  simp [JobEventRow.reviewCycle,h.cycle,Serde.unsigned,Json.Value.asU64,wide,range]

theorem ReadsMarker.slot_eq :
    row.slot = some slot := by
  have role : row.turnRole = some slot.2 := h.role
  rw [JobEventRow.slot,role,h.reviewCycle range]

theorem acceptedTurn_marker {events : List JobEventRow} {upper : Nat} :
    acceptedTurn events row id upper =
      .ok ((acceptedAttempt events id upper turn.turnId).map
        (fun attemptId => ⟨attemptId, turn.turnId, slot.2, slot.1⟩)) := by
  have role : row.turnRole = some slot.2 := h.role
  simp only [acceptedTurn,h.turnId,role,h.reviewCycle range]
  rfl

end Markers

theorem EntryBody.marker_of_accepts {body : EntryBody} (h : body.accepts = some slot) :
    ∃ turn, body.marker = some (slot, turn) := by
  cases body with
  | turnAccepted stage role cycle turn =>
    obtain rfl := Option.some.inj h
    exact ⟨turn,rfl⟩
  | observed | stageCompleted | noted => contradiction

theorem EntryBody.accepts_or_completes {body : EntryBody} (h : body.marker = some (slot, turn)) :
    body.accepts = some slot ∨ body.completes = true := by
  cases body with
  | turnAccepted stage role cycle active =>
    obtain ⟨rfl,-⟩ := Prod.mk.inj (Option.some.inj h)
    exact .inl rfl
  | stageCompleted => exact .inr rfl
  | observed | noted => contradiction

theorem TurnEvent.kind_ne {event : TurnEvent} (permitted : event.permitted = true) :
    event.kind ≠ "review_cycle.turn_completed" ∧ event.kind ≠ "stage.completed" := by
  cases event with
  | messageDelta | messageStarted | messageCompleted => simp [TurnEvent.kind]
  | activity kind fields =>
    have foreign : kind ∉ journalKinds := of_decide_eq_true permitted
    simp only [journalKinds,mem_cons,not_or] at foreign
    exact ⟨foreign.2.2.2.1,foreign.2.2.2.2.1⟩

theorem foreign_kind {kind : String} (own : e.operationId = some id)
    (recordable : e.operationId = none ∨ kind ∉ journalKinds) :
    kind ≠ "review_cycle.turn_completed" ∧ kind ≠ "stage.completed" := by
  rcases recordable with none | foreign
  · rw [own] at none
    contradiction
  · simp only [journalKinds,mem_cons,not_or] at foreign
    exact ⟨foreign.2.2.2.1,foreign.2.2.2.2.1⟩

theorem marker_kind (recordable : Recordable turns e) (own : e.operationId = some id) :
    (e.body.kind = "review_cycle.turn_completed" ↔ e.body.accepts.isSome = true) ∧
      (e.body.kind = "stage.completed" ↔ e.body.completes = true) := by
  unfold Recordable at recordable
  unfold EntryBody.kind EntryBody.accepts EntryBody.completes
  cases body : e.body with
  | observed turn event =>
    rw [body] at recordable
    simp [TurnEvent.kind_ne recordable.1]
  | turnAccepted | stageCompleted => simp
  | noted kind payload =>
    rw [body] at recordable
    simp [foreign_kind own recordable]

theorem Logged.eq_of_sequence (logged : Logged entries nextSequence turns) {x y : Entry}
    (hx : x ∈ entries) (hy : y ∈ entries) (same : x.sequence = y.sequence) : x = y :=
  inj_on_of_nodup_map (pairwise_map.mpr (logged.sequences.imp Nat.ne_of_lt)) hx hy same

def Completion.terminal (c : Completion) : MarkerSlot := (c.cycle, c.role.output)

def latestOf (pairs : List (MarkerSlot × JobEventRow)) : Option JobEventRow :=
  pairs.foldl (fun found pair => some (latestMarker pair.2 found)) none

theorem latestOf_concat (pairs : List (MarkerSlot × JobEventRow))
    (pair : MarkerSlot × JobEventRow) :
    latestOf (pairs ++ [pair]) = some (latestMarker pair.2 (latestOf pairs)) := by
  rw [latestOf,foldl_append]
  rfl

theorem latestOf_isSome :
    (latestOf pairs).isSome = true ↔ pairs ≠ [] := by
  rcases eq_nil_or_concat' pairs with rfl | ⟨before,pair,rfl⟩
  · exact ⟨fun h => absurd h Bool.false_ne_true,fun h => absurd rfl h⟩
  · rw [latestOf_concat]
    simp

theorem latestOf_spec (h : latestOf pairs = some row) :
    (∃ pair ∈ pairs, pair.2 = row) ∧ ∀ pair ∈ pairs, pair.2.sequence ≤ row.sequence := by
  induction pairs using reverseRecOn generalizing row with
  | nil => contradiction
  | append_singleton pairs pair ih =>
    rw [latestOf_concat] at h
    obtain rfl := Option.some.inj h
    have new : pair ∈ pairs ++ [pair] := mem_append_right _ mem_cons_self
    simp only [forall_mem_append,forall_mem_singleton]
    cases found : latestOf pairs with
    | none =>
      have first : pairs = [] := by
        by_contra nonempty
        have some := latestOf_isSome.mpr nonempty
        rw [found] at some
        contradiction
      subst first
      exact ⟨⟨pair,new,rfl⟩,by simp,le_rfl⟩
    | some best =>
      obtain ⟨⟨chosen,mem,same⟩,bound⟩ := ih found
      simp only [latestMarker]
      split
      · next newer =>
        exact ⟨⟨pair,new,rfl⟩,fun old known => (bound old known).trans newer.le,le_rfl⟩
      · next older =>
        exact ⟨⟨chosen,mem_append_left _ mem,same⟩,bound,not_lt.mp older⟩

theorem LastMarker.unique (logged : Logged entries nextSequence turns)
    {x y : Entry} {turn' : TurnRef} (hx : LastMarker entries id x slot turn)
    (hy : LastMarker entries id y slot turn') : x = y := by
  refine logged.eq_of_sequence (mem_entriesOf.mp hx.mem).1 (mem_entriesOf.mp hy.mem).1 ?_
  exact le_antisymm (hy.last x hx.mem turn hx.marker) (hx.last y hy.mem turn' hy.marker)

theorem markersBySlot_nodup (events : List JobEventRow) (id : OperationId)
    (completion : JobEventRow) (terminal : MarkerSlot) :
    ((markersBySlot events id completion terminal).map Prod.fst).Nodup :=
  Assoc.nodup_alter (Assoc.nodup_gather nodup_nil)

section Completing

variable (h : Completed entries accepted turns o c)

include h

theorem Completed.marker :
    c.entry.body.marker = some (c.terminal, c.turn) := by
  rw [h.body]
  rfl

theorem Completed.settledFindings :
    settledFindings (c.entry.row jobId) = .ok (some (.array c.findings)) := by
  simp [Coordinator.settledFindings,Entry.row,h.body,EntryBody.payload,Json.Value.get,
    Json.Value.isArray]

theorem Completed.lastMarker :
    LastMarker entries o.operationId c.entry c.terminal c.turn :=
  ⟨h.mem,h.marker,fun x mem _ _ => h.last x mem⟩

theorem Completed.accepts (mem : e ∈ entriesOf entries o.operationId)
    (marker : e.body.marker = some (slot, turn)) (other : slot ≠ c.terminal) :
    e.body.accepts = some slot := by
  rcases EntryBody.accepts_or_completes marker with accepts | completes
  · exact accepts
  · obtain rfl := h.unique e mem completes
    rw [h.marker] at marker
    exact absurd (Prod.mk.inj (Option.some.inj marker)).1.symm other

section LoggedEntries

variable (logged : Logged entries nextSequence turns)

include logged

theorem Completed.stageCompletion :
    stageCompletion (entries.map (Entry.row jobId)) o = some (c.entry.row jobId) := by
  have only : ∀ row ∈ (entries.map (Entry.row jobId)).filter (fun event =>
      event.operationId = some o.operationId ∧ event.kind = "stage.completed"),
      row = c.entry.row jobId := by
    intro row mem
    obtain ⟨known,kept⟩ := mem_filter.mp mem
    obtain ⟨e,written,rfl⟩ := mem_map.mp known
    obtain ⟨own,kind⟩ := of_decide_eq_true kept
    rw [h.unique e (mem_entriesOf.mpr ⟨written,own⟩)
      ((marker_kind (logged.recordable written) own).2.mp kind)]
  obtain ⟨written,own⟩ := mem_entriesOf.mp h.mem
  have present : c.entry.row jobId ∈ (entries.map (Entry.row jobId)).filter (fun event =>
      event.operationId = some o.operationId ∧ event.kind = "stage.completed") := by
    refine mem_filter.mpr ⟨mem_map_of_mem written,decide_eq_true ⟨own,?_⟩⟩
    refine (marker_kind (logged.recordable written) own).2.mpr ?_
    rw [h.body]
    rfl
  obtain ⟨row,chosen⟩ :=
    Option.isSome_iff_exists.mp (maxByKey_isSome.mpr (ne_nil_of_mem present))
  rw [Coordinator.stageCompletion,chosen,only row (maxByKey_mem chosen)]

theorem mem_cycleMarkers :
    (slot, row) ∈ cycleMarkers (entries.map (Entry.row jobId)) o.operationId
        (c.entry.row jobId) c.terminal ↔
      ∃ e ∈ entriesOf entries o.operationId, e.body.accepts = some slot ∧ e.row jobId = row := by
  unfold cycleMarkers
  constructor
  · intro mem
    obtain ⟨marker,known,slotted⟩ := mem_filterMap.mp mem
    obtain ⟨written,kept⟩ := mem_filter.mp known
    obtain ⟨e,mem,rfl⟩ := mem_map.mp written
    obtain ⟨-,own,kind⟩ := of_decide_eq_true kept
    obtain ⟨m,accepts⟩ := Option.isSome_iff_exists.mp
      ((marker_kind (logged.recordable mem) own).1.mp kind)
    have here := mem_entriesOf.mpr ⟨mem,own⟩
    obtain ⟨turn,marked⟩ := EntryBody.marker_of_accepts accepts
    have range := (h.finishing.markers e here m accepts).2
    rw [(marker_reads marked).slot_eq range] at slotted
    obtain ⟨m',kept,same⟩ := Option.map_eq_some_iff.mp slotted
    obtain ⟨rfl,rfl⟩ := Prod.mk.inj same
    obtain rfl := Option.some.inj (Option.filter_eq_some_iff.mp kept).1
    exact ⟨e,here,accepts,rfl⟩
  · rintro ⟨e,here,accepts,rfl⟩
    obtain ⟨mem,own⟩ := mem_entriesOf.mp here
    obtain ⟨turn,marked⟩ := EntryBody.marker_of_accepts accepts
    obtain ⟨within,range⟩ := h.finishing.markers e here slot accepts
    have kind := (marker_kind (logged.recordable mem) own).1.mpr (by rw [accepts]; rfl)
    refine mem_filterMap.mpr ⟨e.row jobId,mem_filter.mpr
      ⟨mem_map_of_mem mem,decide_eq_true ⟨h.last e here,own,kind⟩⟩,?_⟩
    rw [(marker_reads marked).slot_eq range]
    refine Option.map_eq_some_iff.mpr ⟨slot,Option.filter_eq_some_iff.mpr ⟨rfl,?_⟩,rfl⟩
    exact decide_eq_true within

theorem latest_lastMarker (other : slot ≠ c.terminal) :
    latestOf ((cycleMarkers (entries.map (Entry.row jobId)) o.operationId (c.entry.row jobId)
        c.terminal).filter (fun pair => pair.1 = slot)) = some row ↔
      ∃ e turn, LastMarker entries o.operationId e slot turn ∧ e.row jobId = row := by
  have listed {x : JobEventRow} : (slot, x) ∈ (cycleMarkers (entries.map (Entry.row jobId))
      o.operationId (c.entry.row jobId) c.terminal).filter (fun pair => pair.1 = slot) ↔
      ∃ e ∈ entriesOf entries o.operationId, e.body.accepts = some slot ∧ e.row jobId = x := by
    rw [mem_filter,mem_cycleMarkers h logged]
    simp
  generalize named : (cycleMarkers (entries.map (Entry.row jobId)) o.operationId
    (c.entry.row jobId) c.terminal).filter (fun pair => pair.1 = slot) = pairs at listed
  have slots : ∀ pair ∈ pairs, pair.1 = slot := by
    intro pair mem
    rw [← named] at mem
    exact of_decide_eq_true (mem_filter.mp mem).2
  have last {x : JobEventRow} (found : latestOf pairs = some x) :
      ∃ e turn, LastMarker entries o.operationId e slot turn ∧ e.row jobId = x := by
    obtain ⟨⟨⟨slot',row'⟩,mem,rfl⟩,bound⟩ := latestOf_spec found
    obtain rfl := slots _ mem
    obtain ⟨e,here,accepts,same⟩ := listed.mp mem
    obtain ⟨turn,marked⟩ := EntryBody.marker_of_accepts accepts
    refine ⟨e,turn,⟨here,marked,?_⟩,same⟩
    intro x there turn' marked'
    have below := bound _ (listed.mpr ⟨x,there,h.accepts there marked' other,rfl⟩)
    rw [← same] at below
    exact below
  refine ⟨last,?_⟩
  rintro ⟨e,turn,marker,rfl⟩
  have present := ne_nil_of_mem
    (listed.mpr ⟨e,marker.mem,h.accepts marker.mem marker.marker other,rfl⟩)
  obtain ⟨row',found⟩ := Option.isSome_iff_exists.mp (latestOf_isSome.mpr present)
  obtain ⟨e',turn',marker',rfl⟩ := last found
  rw [found,marker.unique logged marker']

theorem mem_markersBySlot :
    (slot, row) ∈ markersBySlot (entries.map (Entry.row jobId)) o.operationId (c.entry.row jobId)
        c.terminal ↔
      ∃ e turn, LastMarker entries o.operationId e slot turn ∧ e.row jobId = row := by
  rw [Assoc.mem_iff_get (markersBySlot_nodup _ _ _ _)]
  unfold markersBySlot
  by_cases same : slot = c.terminal
  · subst same
    rw [Assoc.get_alter_self,Option.some.injEq]
    constructor
    · rintro rfl
      exact ⟨c.entry,c.turn,h.lastMarker,rfl⟩
    · rintro ⟨e,turn,marker,rfl⟩
      rw [marker.unique logged h.lastMarker]
  · rw [Assoc.get_alter_other same,Assoc.get_gather]
    exact latest_lastMarker h logged same

end LoggedEntries

end Completing

def Lists (entries : List Entry) (id : OperationId) (jobId : JobId) (markers : List JobEventRow) :
    Prop :=
  ∀ row, row ∈ markers ↔ ∃ e slot turn, LastMarker entries id e slot turn ∧ e.row jobId = row

theorem remediationMarkers_ok (jobId : JobId) (h : Completed entries accepted turns o c)
    (logged : Logged entries nextSequence turns) :
    ∃ markers, remediationMarkers (entries.map (Entry.row jobId)) o.operationId
        (c.entry.row jobId) = .ok markers ∧ Lists entries o.operationId jobId markers := by
  have reads : ReadsMarker (c.entry.row jobId).payload c.terminal c.turn := marker_reads h.marker
  have role : (c.entry.row jobId).turnRole = some c.role.output := reads.role
  have cycle : (c.entry.row jobId).reviewCycle = some c.cycle :=
    reads.reviewCycle h.finishing.range
  refine ⟨((markersBySlot (entries.map (Entry.row jobId)) o.operationId (c.entry.row jobId)
    c.terminal).insertionSort (fun left right => left.1.upTo right.1)).map Prod.snd,?_,?_⟩
  · simp only [remediationMarkers,role,cycle]
    rfl
  · intro row
    rw [mem_map]
    constructor
    · rintro ⟨⟨slot,row⟩,mem,rfl⟩
      obtain ⟨e,turn,marker,same⟩ :=
        (mem_markersBySlot h logged).mp ((perm_insertionSort _ _).mem_iff.mp mem)
      exact ⟨e,slot,turn,marker,same⟩
    · rintro ⟨e,slot,turn,marker,same⟩
      exact ⟨(slot, row),(perm_insertionSort _ _).mem_iff.mpr
        ((mem_markersBySlot h logged).mpr ⟨e,turn,marker,same⟩),rfl⟩

theorem single_lists (h : Completed entries accepted turns o c)
    (quiet : ∀ e ∈ entriesOf entries o.operationId, e.body.accepts = none) :
    Lists entries o.operationId jobId [c.entry.row jobId] := by
  intro row
  rw [mem_singleton]
  constructor
  · rintro rfl
    exact ⟨c.entry,c.terminal,c.turn,h.lastMarker,rfl⟩
  · rintro ⟨e,slot,turn,marker,rfl⟩
    rcases EntryBody.accepts_or_completes marker.marker with accepts | completes
    · rw [quiet e marker.mem] at accepts
      contradiction
    · rw [h.unique e marker.mem completes]

end Journal

end Runtime
