import Factory.Runtime.JournalMarkers

namespace Runtime

open Coordinator Table Result List StageJournal Option Entry

namespace Journal

variable {entries : List Entry} {accepted : Accepted} {turns : List StartedTurn}
  {nextSequence : Nat} {e : Entry}
  {slot : MarkerSlot} {turn : TurnRef} {jobId : JobId} {o : OperationRow} {c : Completion}

theorem stageName_remediate (kind : o.kind = (operationKind o).asWireName) :
    stageName o = "remediate" ↔ operationKind o = .remediate := by
  unfold stageName
  rw [kind]
  cases operationKind o <;> decide

theorem LastMarker.range (h : LastMarker entries o.operationId e slot turn)
    (completed : Completed entries accepted turns o c) : slot.1 ≤ u32Max := by
  rcases EntryBody.accepts_or_completes h.marker with accepts | completes
  · exact (completed.finishing.markers e h.mem slot accepts).2
  · have marker := h.marker
    rw [completed.unique e h.mem completes,completed.marker] at marker
    obtain ⟨rfl,-⟩ := Prod.mk.inj (some.inj marker)
    exact completed.finishing.range

def validatedTurn (slot : MarkerSlot) (turn : TurnRef) (attemptId : AttemptId) :
    ValidatedAgentTurn :=
  ⟨attemptId, turn.turnId, slot.2, slot.1⟩

theorem acceptedTurn_last (h : LastMarker entries o.operationId e slot turn)
    (completed : Completed entries accepted turns o c) :
    acceptedTurn (entries.map (row jobId)) (e.row jobId) o.operationId c.entry.sequence =
      .ok ((acceptedAttempt (entries.map (row jobId)) o.operationId c.entry.sequence
        turn.turnId).map (validatedTurn slot turn)) :=
  acceptedTurn_marker (marker_reads h.marker) (h.range completed)

structure Tallied (entries : List Entry) (jobId : JobId) (o : OperationRow) (c : Completion)
    (markers : List JobEventRow) (validated : List (Option ValidatedAgentTurn)) : Prop where
  lists : Lists entries o.operationId jobId markers
  shape : stageName o ≠ "remediate" → markers.length = 1
  gathered : Gathered (entries.map (row jobId)) o (c.entry.row jobId)
    (some (.array c.findings)) markers validated

theorem stageMarkers_ok (jobId : JobId) (completed : Completed entries accepted turns o c)
    (logged : Logged entries nextSequence turns)
    (quiet : stageName o ≠ "remediate" →
      ∀ e ∈ entriesOf entries o.operationId, e.body.accepts = none) :
    ∃ markers, stageMarkers (entries.map (row jobId)) o (c.entry.row jobId) = .ok markers ∧
      Lists entries o.operationId jobId markers ∧
      (stageName o ≠ "remediate" → markers.length = 1) := by
  unfold stageMarkers
  split
  · next remediate =>
    obtain ⟨markers,found,lists⟩ := remediationMarkers_ok jobId completed logged
    exact ⟨markers,found,lists,fun other => absurd remediate other⟩
  · next other =>
    exact ⟨_,rfl,single_lists completed (quiet other),fun _ => rfl⟩

theorem tallied_exists (jobId : JobId) (completed : Completed entries accepted turns o c)
    (logged : Logged entries nextSequence turns)
    (quiet : stageName o ≠ "remediate" →
      ∀ e ∈ entriesOf entries o.operationId, e.body.accepts = none) :
    ∃ markers validated, Tallied entries jobId o c markers validated := by
  obtain ⟨markers,found,lists,shape⟩ := stageMarkers_ok jobId completed logged quiet
  have each : ∀ row ∈ markers, ∃ turn, acceptedTurn (entries.map (Entry.row jobId)) row
      o.operationId (c.entry.row jobId).sequence = .ok turn := by
    intro row mem
    obtain ⟨e,slot,turn,marker,rfl⟩ := (lists row).mp mem
    exact ⟨_,acceptedTurn_last marker completed⟩
  obtain ⟨validated,accepts⟩ := mapM_exists each
  exact ⟨markers,validated,lists,shape,completed.stageCompletion logged,
    completed.settledFindings,found,accepts⟩

section

variable {markers : List JobEventRow} {validated : List (Option ValidatedAgentTurn)}

theorem Tallied.length (h : Tallied entries jobId o c markers validated) :
    validated.length = markers.length :=
  (mapM_ok h.gathered.validated).1

theorem Tallied.verdict (h : Tallied entries jobId o c markers validated)
    (completed : Completed entries accepted turns o c)
    (marker : LastMarker entries o.operationId e slot turn) :
    (acceptedAttempt (entries.map (row jobId)) o.operationId c.entry.sequence
      turn.turnId).map (validatedTurn slot turn) ∈ validated := by
  obtain ⟨verdict,mem,found⟩ := (mapM_ok h.gathered.validated).2.1 (e.row jobId)
    ((h.lists _).mpr ⟨e,slot,turn,marker,rfl⟩)
  have same : _ = Except.ok verdict := (acceptedTurn_last marker completed).symm.trans found
  rw [Except.ok.inj same]
  exact mem

theorem Tallied.marker (h : Tallied entries jobId o c markers validated)
    (completed : Completed entries accepted turns o c) {verdict : Option ValidatedAgentTurn}
    (mem : verdict ∈ validated) :
    ∃ e slot turn, LastMarker entries o.operationId e slot turn ∧
      verdict = (acceptedAttempt (entries.map (row jobId)) o.operationId c.entry.sequence
        turn.turnId).map (validatedTurn slot turn) := by
  obtain ⟨row,known,found⟩ := (mapM_ok h.gathered.validated).2.2 verdict mem
  obtain ⟨e,slot,turn,marker,rfl⟩ := (h.lists row).mp known
  have same : _ = Except.ok verdict := (acceptedTurn_last marker completed).symm.trans found
  exact ⟨e,slot,turn,marker,(Except.ok.inj same).symm⟩

theorem mem_sortTurns {t : ValidatedAgentTurn} :
    t ∈ sortTurns (validated.filterMap id) ↔ some t ∈ validated := by
  rw [sortTurns,(perm_insertionSort _ _).mem_iff,mem_filterMap]
  simp

theorem length_sortTurns :
    (sortTurns (validated.filterMap id)).length = validated.length ↔
      ∀ verdict ∈ validated, verdict.isSome = true := by
  rw [sortTurns,length_insertionSort,filterMap_length_eq_length]
  rfl

section Tallying

variable (h : Tallied entries jobId o c markers validated)
  (completed : Completed entries accepted turns o c) (logged : Logged entries nextSequence turns)

include h completed logged

theorem Tallied.counted_iff :
    (sortTurns (validated.filterMap id)).length = markers.length ↔
      ∀ e slot turn, LastMarker entries o.operationId e slot turn →
        Closed entries o.operationId turn.turnId := by
  rw [← h.length,length_sortTurns]
  constructor
  · intro each e slot turn marker
    have some := each _ (h.verdict completed marker)
    rw [isSome_map] at some
    exact (acceptedAttempt_isSome jobId logged completed.last).mp some
  · intro each verdict mem
    obtain ⟨e,slot,turn,marker,rfl⟩ := h.marker completed mem
    rw [isSome_map]
    exact (acceptedAttempt_isSome jobId logged completed.last).mpr (each e slot turn marker)

theorem Tallied.spoken_iff :
    (∀ t ∈ sortTurns (validated.filterMap id),
        (reduceTurn (entries.map (row jobId)) o.operationId t).isSome = true) ↔
      ∀ e slot turn, LastMarker entries o.operationId e slot turn →
        Closed entries o.operationId turn.turnId → Spoken entries o.operationId turn.turnId := by
  constructor
  · intro each e slot turn marker closed
    obtain ⟨attemptId,found⟩ := isSome_iff_exists.mp
      ((acceptedAttempt_isSome jobId logged completed.last).mpr closed)
    have mem := h.verdict completed marker
    rw [found] at mem
    have voiced : Voiced entries o.operationId (validatedTurn slot turn attemptId).attemptId
        (validatedTurn slot turn attemptId).turnId :=
      acceptedAttempt_voiced logged completed.last found
    exact (reduceTurn_spoken logged voiced).mp (each _ (mem_sortTurns.mpr mem))
  · intro each t mem
    obtain ⟨e,slot,turn,marker,same⟩ := h.marker completed (mem_sortTurns.mp mem)
    obtain ⟨attemptId,found,rfl⟩ := map_eq_some_iff.mp same.symm
    have voiced : Voiced entries o.operationId (validatedTurn slot turn attemptId).attemptId
        (validatedTurn slot turn attemptId).turnId :=
      acceptedAttempt_voiced logged completed.last found
    refine (reduceTurn_spoken logged voiced).mpr (each e slot turn marker ?_)
    refine (acceptedAttempt_isSome jobId logged completed.last).mp ?_
    rw [found]
    rfl

theorem Tallied.empty
    (silent : ∀ e slot turn, LastMarker entries o.operationId e slot turn →
      ¬ Closed entries o.operationId turn.turnId) :
    sortTurns (validated.filterMap id) = [] := by
  refine eq_nil_iff_forall_not_mem.mpr ?_
  intro t mem
  obtain ⟨e,slot,turn,marker,same⟩ := h.marker completed (mem_sortTurns.mp mem)
  obtain ⟨attemptId,found,-⟩ := map_eq_some_iff.mp same.symm
  refine silent e slot turn marker ((acceptedAttempt_isSome jobId logged completed.last).mp ?_)
  rw [found]
  rfl

theorem Tallied.conclude
    (each : ∀ e slot turn, LastMarker entries o.operationId e slot turn →
      Spoken entries o.operationId turn.turnId) :
    ∃ output, reduceOperation (entries.map (row jobId)) o = .ok [output] ∧
      output.operationId = o.operationId ∧
      (stageName o = "remediate" → output.markdown ≠ approvedNoRemediation) := by
  have length := (h.counted_iff completed logged).mpr fun e slot turn marker =>
    (each e slot turn marker).closed
  have spoken := (h.spoken_iff completed logged).mpr fun e slot turn marker _ =>
    each e slot turn marker
  have nonempty : sortTurns (validated.filterMap id) ≠ [] := by
    intro empty
    rw [empty] at length
    have present := (h.lists (c.entry.row jobId)).mpr
      ⟨c.entry,c.terminal,c.turn,completed.lastMarker,rfl⟩
    rw [length_eq_zero_iff.mp length.symm] at present
    exact not_mem_nil present
  have shape : stageName o = "remediate" ∨ (sortTurns (validated.filterMap id)).length = 1 := by
    by_cases named : stageName o = "remediate"
    · exact .inl named
    · exact .inr (length.trans (h.shape named))
  rw [h.gathered.reduceOperation]
  obtain ⟨outputs,found⟩ := concludeOperation_exists nonempty length spoken shape
  obtain ⟨output,rfl,named,⟨bypasses,-⟩ | ⟨-,transcript,-⟩⟩ := concludeOperation_ok found
  · exact absurd bypasses.2.1 nonempty
  · exact ⟨output,found,named,transcript⟩

theorem Tallied.reported {outputs : List CompletedStageOutput}
    (found : reduceOperation (entries.map (row jobId)) o = .ok outputs) :
    ∃ output, outputs = [output] ∧
      (stageName o = "remediate" ∧ output.markdown = approvedNoRemediation ∨
        ∀ e slot turn, LastMarker entries o.operationId e slot turn →
          Spoken entries o.operationId turn.turnId) := by
  rw [h.gathered.reduceOperation] at found
  obtain ⟨output,rfl,-,⟨bypasses,fixed⟩ | ⟨length,-,each⟩⟩ := concludeOperation_ok found
  · exact ⟨output,rfl,.inl ⟨bypasses.1,fixed⟩⟩
  · have closed := (h.counted_iff completed logged).mp length
    have spoken := (h.spoken_iff completed logged).mp each
    exact ⟨output,rfl,.inr fun e slot turn marker =>
      spoken e slot turn marker (closed e slot turn marker)⟩

end Tallying

end

def Succeeded (s : StageJournal) : List OperationRow :=
  s.operations.filter (fun operation => operation.status = .succeeded)

def Reportable (s : StageJournal) (o : OperationRow) : Prop :=
  (operationKind o = .remediate → RemediationAccepted s.accepted o.operationId) →
    ∀ e slot turn, LastMarker s.entries o.operationId e slot turn →
      Spoken s.entries o.operationId turn.turnId

structure Truthful (s : StageJournal) (o : OperationRow) (output : CompletedStageOutput) :
    Prop where
  operation : output.operationId = o.operationId
  remediation : operationKind o = .remediate →
    (output.markdown = approvedNoRemediation ↔ ¬ RemediationAccepted s.accepted o.operationId)

structure Reconstructed (s : StageJournal) (outputs : List CompletedStageOutput) : Prop where
  ordered : (Succeeded s).Pairwise (fun left right => left.ordinal < right.ordinal)
  truthful : List.Forall₂ (Truthful s) (Succeeded s) outputs

variable {s : StageJournal}

theorem Traced.quiet (h : Traced s) (mem : o ∈ s.operations) (other : stageName o ≠ "remediate") :
    ∀ e ∈ entriesOf s.entries o.operationId, e.body.accepts = none := by
  refine h.progress.remediate o mem ?_
  rwa [Ne,← stageName_remediate (h.owned.kinds o mem)]

theorem Bypassed.silent (h : Bypassed s.entries s.accepted s.turns o.operationId c.role c.turn)
    (completed : Completed s.entries s.accepted s.turns o c) (holds : Traced s)
    (marker : LastMarker s.entries o.operationId e slot turn) :
    ¬ Closed s.entries o.operationId turn.turnId := by
  have same : e = c.entry := by
    rcases EntryBody.accepts_or_completes marker.marker with accepts | completes
    · rw [h.unmarked.entries e marker.mem] at accepts
      contradiction
    · exact completed.unique e marker.mem completes
  have marked := marker.marker
  rw [same,completed.marker] at marked
  obtain ⟨-,rfl⟩ := Prod.mk.inj (some.inj marked)
  rintro ⟨x,known,active,event,body,named,-⟩
  obtain ⟨written,own⟩ := mem_entriesOf.mp known
  obtain ⟨-,t,started,called,owner,-⟩ := holds.logged.observed x written active event body
  obtain ⟨other,elsewhere,t',started',called',owned⟩ := h.elsewhere
  obtain rfl := inj_on_of_nodup_map holds.logged.turnIds started started'
    (by rw [called,called',named])
  rw [own,owned] at owner
  exact elsewhere (some.inj owner).symm

theorem reduceOperation_single (h : Traced s) (mem : o ∈ s.operations)
    (succeeded : o.status = .succeeded) {outputs : List CompletedStageOutput}
    (found : reduceOperation s.log o = .ok outputs) : ∃ output, outputs = [output] := by
  obtain ⟨c,completed⟩ := h.progress.settled o mem succeeded
  obtain ⟨markers,validated,tallied⟩ := tallied_exists s.jobId completed h.logged (h.quiet mem)
  obtain ⟨output,same,-⟩ := tallied.reported completed h.logged found
  exact ⟨output,same⟩

theorem reduceOperation_iff (h : Traced s) (mem : o ∈ s.operations)
    (succeeded : o.status = .succeeded) :
    (∃ output, reduceOperation s.log o = .ok [output] ∧ Truthful s o output) ↔ Reportable s o := by
  obtain ⟨c,completed⟩ := h.progress.settled o mem succeeded
  obtain ⟨markers,validated,tallied⟩ := tallied_exists s.jobId completed h.logged (h.quiet mem)
  have remediate := stageName_remediate (h.owned.kinds o mem)
  constructor
  · rintro ⟨output,found,truthful⟩ expected
    obtain ⟨output',same,⟨stage,fixed⟩ | spoken⟩ := tallied.reported completed h.logged found
    · obtain rfl := singleton_inj.mp same
      have kind := remediate.mp stage
      exact absurd (expected kind) ((truthful.remediation kind).mp fixed)
    · exact spoken
  · intro reportable
    by_cases expected : operationKind o = .remediate →
        RemediationAccepted s.accepted o.operationId
    · obtain ⟨output,found,named,transcript⟩ :=
        tallied.conclude completed h.logged (reportable expected)
      refine ⟨output,found,named,?_⟩
      intro kind
      exact iff_of_false (transcript (remediate.mpr kind)) (not_not_intro (expected kind))
    · obtain ⟨kind,unaccepted⟩ := Classical.not_imp.mp expected
      have bypassed := (completed.finishing.remediated kind).resolve_left unaccepted
      have empty := tallied.empty completed h.logged fun e slot turn marker =>
        bypassed.silent completed h marker
      have role : (c.entry.row s.jobId).turnRole = some c.role.output :=
        (marker_reads completed.marker).role
      rw [bypassed.role] at role
      rw [log,tallied.gathered.reduceOperation]
      exact ⟨_,concludeOperation_bypass ⟨remediate.mpr kind,empty,role⟩,rfl,
        fun _ => iff_of_true rfl unaccepted⟩

theorem Traced.ordered (h : Traced s) :
    (Succeeded s).Pairwise (fun left right => left.ordinal < right.ordinal) := by
  have increasing : (s.operations.map (·.ordinal)).Pairwise (· < ·) := by
    rw [h.owned.ordinals]
    exact pairwise_lt_range
  exact (pairwise_map.mp increasing).filter _

theorem Traced.settledOperations (h : Traced s) : settledOperations s.operations = Succeeded s :=
  List.Pairwise.insertionSort_eq (h.ordered.imp Nat.le_of_lt)

theorem settled_outputs_reconstructed (maxReviewCycles : UInt32) (jobId : JobId)
    (inputs : List JournalStep) :
    (∃ outputs, reduceSettledJobOutputs
        ((start jobId).run maxReviewCycles inputs).operations
        ((start jobId).run maxReviewCycles inputs).log = .ok outputs ∧
      Reconstructed ((start jobId).run maxReviewCycles inputs) outputs) ↔
    ∀ o ∈ Succeeded ((start jobId).run maxReviewCycles inputs),
      Reportable ((start jobId).run maxReviewCycles inputs) o := by
  have holds := traced_run maxReviewCycles jobId inputs
  generalize (start jobId).run maxReviewCycles inputs = s at holds ⊢
  have known : ∀ o ∈ Succeeded s, o ∈ s.operations ∧ o.status = .succeeded := by
    intro o mem
    obtain ⟨member,succeeded⟩ := mem_filter.mp mem
    exact ⟨member,of_decide_eq_true succeeded⟩
  have each := @mapM_singletons _ _ _ (Succeeded s) (reduceOperation s.log) (Truthful s)
    fun o mem outputs found =>
      reduceOperation_single holds (known o mem).1 (known o mem).2 found
  unfold reduceSettledJobOutputs
  rw [holds.settledOperations]
  simp only [bind_ok,pure_ok]
  constructor
  · rintro ⟨outputs,⟨lists,found,rfl⟩,reconstructed⟩ o mem
    refine (reduceOperation_iff holds (known o mem).1 (known o mem).2).mp ?_
    exact each.mp ⟨lists,found,reconstructed.truthful⟩ o mem
  · intro reportable
    obtain ⟨lists,found,truthful⟩ := each.mpr fun o mem =>
      (reduceOperation_iff holds (known o mem).1 (known o mem).2).mpr (reportable o mem)
    exact ⟨lists.flatten,⟨lists,found,rfl⟩,holds.ordered,truthful⟩

def wordlessPlan : StageJournal :=
  (start "job").run 3
    [.create ["plan", "execute", "review", "remediate"], .claim "attempt", .enter false, .run,
      .started ⟨"thread", "turn"⟩, .await, .finish, .evaluate true true, .conclude true, .settle []]

theorem wordless_turn_not_reconstructed :
    ¬ ∃ outputs, reduceSettledJobOutputs wordlessPlan.operations wordlessPlan.log = .ok outputs ∧
      Reconstructed wordlessPlan outputs := by
  have failed : reduceSettledJobOutputs wordlessPlan.operations wordlessPlan.log = .error
      ⟨"settled plan stage has an accepted turn without completed agent output"⟩ := by rfl
  rintro ⟨outputs,found,-⟩
  rw [failed] at found
  contradiction

end Journal

end Runtime
