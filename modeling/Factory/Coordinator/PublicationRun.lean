import Factory.Coordinator.ArtifactPlan
import Factory.Coordinator.PublicationReading

namespace Coordinator

open Result PublicationSystem List

def settledNow (jobId : JobId) (s : Store) : List OperationRow :=
  settledOperations (s.operationsOf jobId)

structure Evolves (jobId : JobId) (s t : Store) : Prop where
  settled : settledNow jobId s <+: settledNow jobId t
  events : ∀ o ∈ settledNow jobId s, ownEvents o.operationId (t.jobEvents jobId) =
    ownEvents o.operationId (s.jobEvents jobId)
  numbered : Numbered s.events s.nextSequence → Numbered t.events t.nextSequence

theorem step_evolves (jobId : JobId) (sys : System) (call : Call) (sound : sys.store.Sound) :
    Evolves jobId sys.store (sys.step call).store := by
  have sound' := System.sound_step sys call sound
  by_cases same : (sys.step call).store = sys.store
  · rw [same]
    exact ⟨List.prefix_rfl,fun _ _ => rfl,id⟩
  · obtain ⟨response,store,executed⟩ := System.step_changes same
    have result : (sys.step call).store = store := by
      simp only [System.step,executed]
    rw [result] at sound' ⊢
    obtain ⟨f,added,advances⟩ := Store.exec_advances sound executed
    have logs := Store.exec_logs sound executed
    refine ⟨Store.settled_prefix sound sound'.wellFormed advances jobId,fun o settled => ?_,
      logs.numbered⟩
    obtain ⟨known,succeeded⟩ := mem_settledOperations.mp settled
    exact logs.settled_events (Store.mem_operationsOf.mp known).1 succeeded jobId

def Recorded (operations : List OperationRow) (events : List JobEventRow)
    (publication : Publication) : Prop :=
  ∃ done, done <+: operations ∧ Reduced done events publication.outputs

def Present (files : ArtifactFiles) (operations : List OperationRow) : Prop :=
  ∀ file stage, JobArtifactFile.stage file = some stage → coordinatorCopy files file ≠ none →
    ∃ o ∈ operations, stageName o = stage

structure Loaded (settled : List OperationRow) (events : List JobEventRow)
    (finished : List Publication) (files : ArtifactFiles) (operations : List OperationRow) :
    Prop where
  within : settledOperations operations <+: settled
  recorded : ∀ publication ∈ finished, Recorded (settledOperations operations) events publication
  present : Present files (settledOperations operations)

def Stocked (operations : List OperationRow) (step : FileStep) : Prop :=
  ∀ stage, step.file.stage = some stage → ∃ o ∈ operations, stageName o = stage

structure Replacing (events : List JobEventRow) (files : ArtifactFiles)
    (operations : List OperationRow) (collected : List JobEventRow)
    (outputs : List CompletedStageOutput) (steps : List FileStep) : Prop where
  reduced : reduceSettledJobOutputs operations collected = .ok outputs
  whole : ∀ o ∈ settledOperations operations, ownEvents o.operationId collected =
    ownEvents o.operationId events
  goal : ∀ file, file ≠ .job → file ≠ .task → foretell files steps file = published outputs file
  publishing : ∀ step ∈ steps, step.repairs = false
  planned : ∀ step ∈ steps.tail, step.planned = true
  stocked : ∀ step ∈ steps, Stocked (settledOperations operations) step

def PhaseHolds (settled : List OperationRow) (events : List JobEventRow)
    (finished : List Publication) (files : ArtifactFiles) : PublisherPhase → Prop
  | .waiting => True
  | .loading => True
  | .preparing job steps => Loaded settled events finished files job.operations ∧
      ∀ step ∈ steps, step.file.stage = none
  | .reading job after collected => Loaded settled events finished files job.operations ∧
      ∀ o ∈ settledOperations job.operations, Collected events after collected o.operationId
  | .replacing job collected outputs steps =>
    Loaded settled events finished files job.operations ∧
      Replacing events files job.operations collected outputs steps

structure Reflects (jobId : JobId) (sys : PublicationSystem) : Prop where
  sound : sys.store.Sound
  numbered : Numbered sys.store.events sys.store.nextSequence
  exclusive : ∀ id publisher, sys.publishers id = some publisher →
    publisher.phase.locked = true → sys.lock = some id
  recorded : ∀ publication ∈ sys.finished,
    Recorded (settledNow jobId sys.store) (sys.store.jobEvents jobId) publication
  ordered : (sys.finished.map (·.outputs)).Pairwise (· <+: ·)
  present : Present sys.files (settledNow jobId sys.store)
  phases : ∀ id publisher, sys.publishers id = some publisher →
    PhaseHolds (settledNow jobId sys.store) (sys.store.jobEvents jobId) sys.finished sys.files
      publisher.phase

section Evolution

variable {jobId : JobId} {s t : Store} {finished : List Publication} {files : ArtifactFiles}
  {operations : List OperationRow} {publication : Publication}

theorem Recorded.evolves (h : Recorded operations (s.jobEvents jobId) publication)
    (within : operations <+: settledNow jobId s) (evolves : Evolves jobId s t) :
    Recorded operations (t.jobEvents jobId) publication := by
  obtain ⟨done,shorter,reduced⟩ := h
  refine ⟨done,shorter,reduced.congr fun o listed => ?_⟩
  exact (evolves.events o (within.subset (shorter.subset listed))).symm

variable {longer : List OperationRow}

theorem Recorded.widen {events : List JobEventRow} (h : Recorded operations events publication)
    (within : operations <+: longer) :
    Recorded longer events publication := by
  obtain ⟨done,shorter,reduced⟩ := h
  exact ⟨done,shorter.trans within,reduced⟩

theorem Present.widen (h : Present files operations) (within : operations <+: longer) :
    Present files longer := by
  intro file stage staged exists_
  obtain ⟨o,listed,named⟩ := h file stage staged exists_
  exact ⟨o,within.subset listed,named⟩

theorem Loaded.evolves
    (h : Loaded (settledNow jobId s) (s.jobEvents jobId) finished files operations)
    (evolves : Evolves jobId s t) :
    Loaded (settledNow jobId t) (t.jobEvents jobId) finished files operations :=
  ⟨h.within.trans evolves.settled,
    fun p listed => (h.recorded p listed).evolves h.within evolves,h.present⟩

theorem PhaseHolds.evolves {phase : PublisherPhase} (evolves : Evolves jobId s t)
    (h : PhaseHolds (settledNow jobId s) (s.jobEvents jobId) finished files phase) :
    PhaseHolds (settledNow jobId t) (t.jobEvents jobId) finished files phase := by
  cases phase with
  | waiting | loading => exact trivial
  | preparing job steps => exact ⟨h.1.evolves evolves,h.2⟩
  | reading job after collected =>
    refine ⟨h.1.evolves evolves,fun o listed => ?_⟩
    have kept := evolves.events o (h.1.within.subset listed)
    obtain ⟨split⟩ := h.2 o listed
    refine ⟨?_⟩
    rw [kept]
    exact split
  | replacing job collected outputs steps =>
    refine ⟨h.1.evolves evolves,{ h.2 with whole := fun o listed => ?_ }⟩
    rw [evolves.events o (h.1.within.subset listed)]
    exact h.2.whole o listed

end Evolution

variable {jobId : JobId} {sys : PublicationSystem} {id : Nat} {publisher : Publisher}
  {files later : ArtifactFiles} {phase : PublisherPhase} {step : FileStep}
  {rest next : List FileStep} {uuid : String} {operations settled : List OperationRow}
  {events : List JobEventRow} {finished : List Publication}

theorem disturb_copy (left : Option String) :
    coordinatorCopy (step.disturb uuid left files) = coordinatorCopy files := by
  cases step with
  | writeTemporary | rename => exact coordinatorCopy_update_temporary _ _ _
  | replace | remove | repair => rfl

theorem Present.of_copy (h : Present files operations)
    (copy : ∀ file, JobArtifactFile.stage file ≠ none →
      coordinatorCopy later file = coordinatorCopy files file) : Present later operations := by
  intro file stage staged exists_
  rw [copy file (by rw [staged]; exact nofun)] at exists_
  exact h file stage staged exists_

theorem Present.perform (h : Present files operations) (performed : Performs files later step next)
    (stocked : Stocked operations step) : Present later operations := by
  intro file stage staged exists_
  by_cases own : file = step.file
  · subst own
    exact stocked stage staged
  · rw [performed.others file own] at exists_
    exact h file stage staged exists_

theorem Stocked.widen (h : Stocked operations step) (within : operations <+: settled) :
    Stocked settled step := by
  intro stage staged
  obtain ⟨o,listed,named⟩ := h stage staged
  exact ⟨o,within.subset listed,named⟩

section Queued

variable (h : PhaseHolds settled events finished files phase) (steps : phase.steps = step :: rest)

include h steps

theorem PhaseHolds.stocked : Stocked settled step := by
  cases phase with
  | waiting | loading | reading => cases steps
  | preparing job queued =>
    cases steps
    intro stage staged
    rw [h.2 step mem_cons_self] at staged
    cases staged
  | replacing job collected outputs queued =>
    cases steps
    exact (h.2.stocked step mem_cons_self).widen h.1.within

theorem PhaseHolds.perform (performed : Performs files later step next) :
    PhaseHolds settled events finished later (phase.resume (next ++ rest)) := by
  cases phase with
  | waiting | loading | reading => cases steps
  | preparing job queued =>
    cases steps
    have bare := h.2 step mem_cons_self
    refine ⟨⟨h.1.within,h.1.recorded,h.1.present.perform performed ?_⟩,fun follow listed => ?_⟩
    · intro stage staged
      rw [bare] at staged
      cases staged
    · rcases mem_append.mp listed with new | old
      · rw [performed.file follow new]
        exact bare
      · exact h.2 follow (mem_cons_of_mem _ old)
  | replacing job collected outputs queued =>
    cases steps
    obtain ⟨loaded,replacing⟩ := h
    have remaining : ∀ follow ∈ rest, follow.planned = true := replacing.planned
    have plain := replacing.publishing step mem_cons_self
    have stocked := replacing.stocked step mem_cons_self
    obtain ⟨short,unrepaired⟩ := performed.single plain
    refine ⟨⟨loaded.within,loaded.recorded,loaded.present.perform performed stocked⟩,?_⟩
    refine { replacing with goal := ?_, publishing := ?_, planned := ?_, stocked := ?_ }
    · intro file job task
      rw [foretell_perform performed plain remaining]
      exact replacing.goal file job task
    · intro follow listed
      rcases mem_append.mp listed with new | old
      · exact unrepaired follow new
      · exact replacing.publishing follow (mem_cons_of_mem _ old)
    · intro follow listed
      refine replacing.planned follow ?_
      cases next with
      | nil => exact mem_of_mem_tail listed
      | cons first others =>
        cases others with
        | nil => exact listed
        | cons => exact absurd short (by simp)
    · intro follow listed
      rcases mem_append.mp listed with new | old
      · unfold Stocked
        rw [performed.file follow new]
        exact stocked
      · exact replacing.stocked follow (mem_cons_of_mem _ old)

theorem PhaseHolds.skip (side : step.side = .projection) (left : Option String) :
    PhaseHolds settled events finished (step.disturb uuid left files) (phase.resume rest) := by
  have copy : ∀ file, JobArtifactFile.stage file ≠ none →
      coordinatorCopy (step.disturb uuid left files) file = coordinatorCopy files file := by
    intro file _
    rw [disturb_copy]
  cases phase with
  | waiting | loading | reading => cases steps
  | preparing job queued =>
    cases steps
    exact ⟨⟨h.1.within,h.1.recorded,h.1.present.of_copy copy⟩,
      fun follow listed => h.2 follow (mem_cons_of_mem _ listed)⟩
  | replacing job collected outputs queued =>
    cases steps
    obtain ⟨loaded,replacing⟩ := h
    have remaining : ∀ follow ∈ rest, follow.planned = true := replacing.planned
    refine ⟨⟨loaded.within,loaded.recorded,loaded.present.of_copy copy⟩,?_⟩
    refine { replacing with goal := ?_, publishing := ?_, planned := ?_, stocked := ?_ }
    · intro file job task
      rw [foretell_projection side left remaining]
      exact replacing.goal file job task
    · exact fun follow listed => replacing.publishing follow (mem_cons_of_mem _ listed)
    · exact fun follow listed => replacing.planned follow (mem_of_mem_tail listed)
    · exact fun follow listed => replacing.stocked follow (mem_cons_of_mem _ listed)

end Queued

namespace Reflects

section Standing

variable (h : Reflects jobId sys)

include h

theorem held (found : sys.publishers id = some publisher)
    (steps : publisher.phase.steps = step :: rest) : sys.lock = some id := by
  refine h.exclusive id publisher found ?_
  cases phase : publisher.phase with
  | waiting =>
    rw [phase] at steps
    cases steps
  | loading | preparing | reading | replacing => rfl

theorem alone (lock : sys.lock = some id) {other : Nat} (different : other ≠ id)
    (found : sys.publishers other = some publisher) :
    publisher.phase = .waiting := by
  cases phase : publisher.phase with
  | waiting => rfl
  | loading | preparing | reading | replacing =>
    have held := h.exclusive other publisher found (by rw [phase]; rfl)
    exact absurd (Option.some.inj (held.symm.trans lock)) different

theorem settle {after : PublicationSystem} {current : Option Publisher}
    (coordinator : after.coordinator = sys.coordinator)
    (publishers : after.publishers = Function.update sys.publishers id current)
    (quiet : ∀ other, other ≠ id → ∀ publisher, sys.publishers other = some publisher →
      publisher.phase = .waiting ∨
        after.lock = sys.lock ∧ after.files = sys.files ∧ after.finished = sys.finished)
    (recorded : ∀ publication ∈ after.finished,
      Recorded (settledNow jobId sys.store) (sys.store.jobEvents jobId) publication)
    (ordered : (after.finished.map (·.outputs)).Pairwise (· <+: ·))
    (present : Present after.files (settledNow jobId sys.store))
    (holds : ∀ publisher ∈ current, (publisher.phase.locked = true → after.lock = some id) ∧
      PhaseHolds (settledNow jobId sys.store) (sys.store.jobEvents jobId) after.finished after.files
        publisher.phase) :
    Reflects jobId after := by
  have store : after.store = sys.store := congrArg System.store coordinator
  have each : ∀ other publisher, after.publishers other = some publisher →
      (publisher.phase.locked = true → after.lock = some other) ∧
        PhaseHolds (settledNow jobId sys.store) (sys.store.jobEvents jobId) after.finished
          after.files publisher.phase := by
    intro other publisher found
    rw [publishers] at found
    by_cases same : other = id
    · subst same
      rw [Function.update_self] at found
      exact holds publisher found
    · rw [Function.update_of_ne same] at found
      rcases quiet other same publisher found with waiting | ⟨lock,files,finished⟩
      · rw [waiting]
        exact ⟨nofun,trivial⟩
      · rw [lock,files,finished]
        exact ⟨h.exclusive other publisher found,h.phases other publisher found⟩
  refine ⟨?_,?_,fun other publisher found => (each other publisher found).1,?_,ordered,?_,?_⟩
  all_goals rw [store]
  · exact h.sound
  · exact h.numbered
  · exact recorded
  · exact present
  · exact fun other publisher found => (each other publisher found).2

theorem close : Reflects jobId (sys.close id) := by
  refine h.settle rfl rfl (fun other different publisher found => ?_) h.recorded h.ordered h.present
    nofun
  by_cases held : sys.lock = some id
  · exact .inl (h.alone held different found)
  · exact .inr ⟨if_neg held,rfl,rfl⟩

theorem advance (held : sys.lock = some id) (publisher : Publisher)
    (holds : PhaseHolds (settledNow jobId sys.store) (sys.store.jobEvents jobId) sys.finished files
      phase) (present : Present files (settledNow jobId sys.store)) :
    Reflects jobId { sys.advance id publisher phase with files := files } := by
  refine h.settle rfl rfl (fun other different publisher found => ?_) h.recorded h.ordered present
    ?_
  · exact .inl (h.alone held different found)
  · rintro _ ⟨⟩
    exact ⟨fun _ => held,holds⟩

theorem follow (held : sys.lock = some id) (publisher : Publisher) {phase : Option PublisherPhase}
    (holds : ∀ next ∈ phase, PhaseHolds
      (settledNow jobId sys.store) (sys.store.jobEvents jobId) sys.finished sys.files next) :
    Reflects jobId (sys.follow id publisher phase) := by
  cases phase with
  | none => exact h.close
  | some next => exact h.advance held publisher (holds next rfl) h.present

theorem start (request : PublisherRequest) (hostRepositoryId : Option String) :
    Reflects jobId (sys.start jobId id request hostRepositoryId) := by
  unfold PublicationSystem.start
  split
  · exact h
  · refine h.settle rfl rfl (fun _ _ _ _ => .inr ⟨rfl,rfl,rfl⟩) h.recorded h.ordered h.present ?_
    intro publisher opened
    have waiting : publisher.phase = .waiting := by
      cases request with
      | runtime attemptId operationId =>
        obtain ⟨_,-,_,-,rfl⟩ := by
          simpa [Publisher.opened,Option.bind_eq_some_iff] using opened
        rfl
      | fullResult | artifacts =>
        obtain ⟨_,-,rfl⟩ := by
          simpa [Publisher.opened,Option.bind_eq_some_iff] using opened
        rfl
    rw [waiting]
    exact ⟨nofun,trivial⟩

theorem acquire (publisher : Publisher) :
    Reflects jobId (sys.acquire id publisher) := by
  unfold PublicationSystem.acquire
  split
  · rename_i free
    refine h.settle rfl rfl (fun other different waiter listed => ?_) h.recorded h.ordered
      h.present ?_
    · left
      cases phase : waiter.phase with
      | waiting => rfl
      | loading | preparing | reading | replacing =>
        have held := h.exclusive other waiter listed (by rw [phase]; rfl)
        rw [free] at held
        cases held
    · rintro _ ⟨⟩
      exact ⟨fun _ => rfl,trivial⟩
  · exact h

end Standing

end Reflects

end Coordinator
