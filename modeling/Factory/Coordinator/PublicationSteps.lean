import Factory.Coordinator.PublicationRun

namespace Coordinator

open Result PublicationSystem List Function JobArtifactFile

variable {jobId : JobId} {s : Store} {sys : PublicationSystem} {id : Nat} {publisher : Publisher}
  {files : ArtifactFiles} {settled : List OperationRow} {events collected : List JobEventRow}
  {finished : List Publication} {job : DurableJob} {steps rest : List FileStep} {step : FileStep}
  {phase : PublisherPhase} {outputs : List CompletedStageOutput} {file : JobArtifactFile}

theorem loadJob_settled (wf : s.WellFormed) (h : s.loadJob jobId = .ok job) :
    settledOperations job.operations = settledNow jobId s := by
  simp only [Store.loadJob,bind_ok,okOr_ok,pure_ok] at h
  obtain ⟨row,-,rfl⟩ := h
  exact congrArg settledOperations (List.Pairwise.insertionSort_eq (wf.sorted jobId))

theorem inventory_unstaged (h : publisher.inventory job = .ok steps) :
    ∀ step ∈ steps, step.file.stage = none := by
  unfold Publisher.inventory at h
  split at h
  · simp only [bind_ok,pure_ok] at h
    obtain ⟨-,-,-,-,rfl⟩ := h
    intro step listed
    rcases mem_append.mp listed with first | second
    · rw [(writeJobFile_step first).2]
      rfl
    · rw [(writeJobFile_step second).2]
      rfl
  all_goals
    obtain rfl := pure_ok.mp h
    simp [initializeMissingJobFiles,FileStep.file,stage]

theorem published_some {output : CompletedStageOutput} (known : output ∈ outputs)
    (staged : file.stage = some output.stage) : published outputs file ≠ none := by
  rw [published_stage (by rw [staged]; rfl),Ne,Option.map_eq_none_iff,getLast?_eq_none_iff]
  intro empty
  have hit : output ∈ outputs.filter (fun output =>
      forStage output.stage = some file) :=
    mem_filter.mpr ⟨known,decide_eq_true (forStage_iff.mpr staged)⟩
  rw [empty] at hit
  cases hit

theorem plan_goal {projects : Bool} (h : publishSettledOutputs projects outputs = .ok steps)
    (present : ∀ stage, file.stage = some stage → coordinatorCopy files file ≠ none →
      ∃ output ∈ outputs, output.stage = stage) (job : file ≠ .job) (task : file ≠ .task) :
    foretell files steps file = published outputs file := by
  obtain ⟨plain,staged⟩ := plan_foretells h files file
  cases named : file.stage with
  | none =>
    refine plain ?_
    cases file with
    | result => exact .inl rfl
    | findings => exact .inr rfl
    | job => exact absurd rfl job
    | task => exact absurd rfl task
    | plan | execute | iterate | review | remediate => cases named
  | some stage =>
    rw [staged (by rw [named]; rfl)]
    cases copy : coordinatorCopy files file with
    | none => exact Option.or_none
    | some text =>
      obtain ⟨output,known,rfl⟩ := present stage named (by rw [copy]; exact nofun)
      obtain ⟨rendered,some⟩ := Option.ne_none_iff_exists'.mp (published_some known named)
      rw [some]
      rfl

theorem reduce_holds (loaded : Loaded settled events finished files job.operations)
    (whole : ∀ o ∈ settledOperations job.operations, ownEvents o.operationId collected =
      ownEvents o.operationId events)
    (h : publisher.reduce job collected = some phase) :
    PhaseHolds settled events finished files phase := by
  unfold Publisher.reduce at h
  split at h
  · cases h
  · rename_i outputs reduced
    split_ifs at h with publishes
    split at h
    · cases h
    · rename_i steps planned
      cases h
      have stages := (reduced_iff.mp reduced).stages
      have serves := plan_serves planned
      refine ⟨loaded,reduced,whole,?_,?_,?_,?_⟩
      · intro file
        refine plan_goal planned fun stage staged copied => ?_
        obtain ⟨o,listed,named⟩ := loaded.present file stage staged copied
        have member := mem_map.mpr ⟨o,listed,named⟩
        rw [← stages] at member
        exact mem_map.mp member
      · intro step listed
        have replaces := (serves step listed).planned
        cases step with
        | replace | remove => rfl
        | writeTemporary | rename | repair => cases replaces
      · exact fun step listed => (serves step (mem_of_mem_tail listed)).planned
      · intro step listed stage staged
        have member := mem_map.mpr ((serves step listed).stage stage staged)
        rw [stages] at member
        exact mem_map.mp member

theorem read_holds {after : Nat} {hidden : List Nat} (numbered : Numbered s.events s.nextSequence)
    (loaded : Loaded settled (s.jobEvents jobId) finished files job.operations)
    (collects : ∀ o ∈ settledOperations job.operations,
      Collected (s.jobEvents jobId) after collected o.operationId)
    (h : publisher.read jobId (s.visible hidden) job after collected = some phase) :
    PhaseHolds settled (s.jobEvents jobId) finished files phase := by
  unfold Publisher.read at h
  split at h
  · cases h
  · rename_i page read
    split_ifs at h with short
    · exact reduce_holds loaded
        (fun o listed => (collects o listed).complete numbered read short) h
    · cases h
      exact ⟨loaded,fun o listed => (collects o listed).next numbered read⟩

section Inventory

variable {side : ArtifactSide} {contents : Option String} {other : JobArtifactFile}

theorem inventory_copy (different : other ≠ file) :
    coordinatorCopy (update files (side, file.fileName) contents) other =
      coordinatorCopy files other := by
  refine update_of_ne ?_ _ _
  intro same
  exact different (fileName_injective (congrArg Prod.snd same))

theorem inventory_foretell (different : other ≠ file) (steps : List FileStep) :
    foretell (update files (side, file.fileName) contents) steps other =
      foretell files steps other := by
  have assigns : FileStep.assigns (update files (side, file.fileName) contents) =
      FileStep.assigns files := by
    funext step
    cases step with
    | rename place target uuid =>
      cases place with
      | coordinator =>
        have apart : (ArtifactSide.coordinator, target.temporaryName uuid) ≠
            (side, file.fileName) := fun same =>
          target.temporaryName_ne file uuid (congrArg Prod.snd same).symm
        rw [FileStep.assigns,FileStep.assigns,update_of_ne apart]
      | projection => rfl
    | replace place | writeTemporary place | remove place => cases place <;> rfl
    | repair => rfl
  rw [foretell,foretell,LastWrite.writes_apply,LastWrite.writes_apply,assigns,
    inventory_copy different]

theorem PhaseHolds.inventory (h : PhaseHolds settled events finished files phase)
    (bare : file = .job ∨ file = .task) :
    PhaseHolds settled events finished
      (update files (side, file.fileName) contents) phase := by
  have copy : ∀ other, stage other ≠ none →
      coordinatorCopy (update files (side, file.fileName) contents) other =
        coordinatorCopy files other := by
    intro other staged
    refine inventory_copy ?_
    rintro rfl
    rcases bare with rfl | rfl <;> exact staged rfl
  cases phase with
  | waiting | loading => exact trivial
  | preparing | reading => exact ⟨⟨h.1.within,h.1.recorded,h.1.present.of_copy copy⟩,h.2⟩
  | replacing =>
    refine ⟨⟨h.1.within,h.1.recorded,h.1.present.of_copy copy⟩,{ h.2 with goal := ?_ }⟩
    intro other job task
    rw [inventory_foretell]
    · exact h.2.goal other job task
    · rintro rfl
      exact bare.elim job task

end Inventory

namespace Reflects

theorem call (h : Reflects jobId sys) (call : Call) :
    Reflects jobId { sys with coordinator := sys.coordinator.step call } := by
  have evolves := step_evolves jobId sys.coordinator call h.sound
  refine ⟨System.sound_step _ call h.sound,evolves.numbered h.numbered,h.exclusive,?_,h.ordered,
    h.present.widen evolves.settled,?_⟩
  · intro publication listed
    exact ((h.recorded publication listed).evolves prefix_rfl evolves).widen evolves.settled
  · exact fun id publisher found => (h.phases id publisher found).evolves evolves

theorem inventory (h : Reflects jobId sys) (side : ArtifactSide) (contents : Option String)
    (bare : file = .job ∨ file = .task) :
    Reflects jobId { sys with
      files := update sys.files (side, file.fileName) contents } := by
  refine { h with present := ?_, phases := ?_ }
  · refine h.present.of_copy fun other staged => inventory_copy ?_
    rintro rfl
    rcases bare with rfl | rfl <;> exact staged rfl
  · exact fun id publisher found => (h.phases id publisher found).inventory bare

theorem disturbed (h : Reflects jobId sys) (step : FileStep) (uuid : String)
    (left : Option String) :
    Present (step.disturb uuid left sys.files) (settledNow jobId sys.store) :=
  h.present.of_copy fun file _ => by rw [disturb_copy]

section Published

variable (h : Reflects jobId sys) (found : sys.publishers id = some publisher)

include h found

theorem load :
    Reflects jobId (sys.load jobId id publisher) := by
  unfold PublicationSystem.load
  split
  · rename_i phase
    have held := h.exclusive id publisher found (by rw [phase]; rfl)
    split
    · exact h.close
    · rename_i job loaded
      split
      · exact h.close
      · rename_i steps listed
        have current := loadJob_settled h.sound.wellFormed loaded
        refine h.advance held publisher ⟨⟨?_,?_,?_⟩,inventory_unstaged listed⟩ h.present
        · exact current ▸ prefix_rfl
        · rw [current]
          exact h.recorded
        · rw [current]
          exact h.present
  · exact h

theorem readPage (hidden : List Nat) : Reflects jobId (sys.readPage jobId id hidden publisher) := by
  have holds := h.phases id publisher found
  have exclusive := h.exclusive id publisher found
  unfold PublicationSystem.readPage
  split
  · rename_i job phase
    rw [phase] at holds exclusive
    exact h.follow (exclusive rfl) publisher fun next read =>
      read_holds h.numbered holds.1 (fun _ _ => .start h.numbered) read
  · rename_i job after collected phase
    rw [phase] at holds exclusive
    exact h.follow (exclusive rfl) publisher fun next read =>
      read_holds h.numbered holds.1 holds.2 read
  · exact h

theorem abandon (steps : publisher.phase.steps = step :: rest) (uuid : String)
    (left : Option String) :
    Reflects jobId { sys.close id with files := step.disturb uuid left sys.files } := by
  have held := h.held found steps
  exact h.settle rfl rfl
    (fun other different publisher found => .inl (h.alone held different found))
    h.recorded h.ordered (h.disturbed step uuid left) nofun

theorem fail (steps : publisher.phase.steps = step :: rest) (uuid : String) (left : Option String) :
    Reflects jobId (match step.side with
      | .coordinator => PublicationSystem.close id
          { sys with files := step.disturb uuid left sys.files }
      | .projection => PublicationSystem.advance id publisher (publisher.phase.resume rest)
          { sys with files := step.disturb uuid left sys.files }) := by
  split
  · exact h.abandon found steps uuid left
  · rename_i side
    exact h.advance (h.held found steps) publisher
      ((h.phases id publisher found).skip steps side left)
      (h.disturbed step uuid left)

theorem work (uuid : String) (outcome : FileOutcome) :
    Reflects jobId (sys.work id uuid outcome publisher) := by
  have holds := h.phases id publisher found
  unfold PublicationSystem.work
  split
  · exact h
  · rename_i step rest steps
    dsimp only
    split
    · rename_i next files performed
      have performs := performs performed
      exact h.advance (h.held found steps) publisher (holds.perform steps performs)
        (h.present.perform performs (holds.stocked steps))
    · exact h.fail found steps uuid none
    · exact h.fail found steps uuid _

theorem finish :
    Reflects jobId (sys.finish id publisher) := by
  have holds := h.phases id publisher found
  have exclusive := h.exclusive id publisher found
  unfold PublicationSystem.finish
  split
  · rename_i job collected outputs phase
    rw [phase] at holds exclusive
    obtain ⟨loaded,replacing⟩ := holds
    have reduced := (reduced_iff.mp replacing.reduced).congr replacing.whole
    refine h.settle rfl rfl
      (fun other different publisher found => .inl (h.alone (exclusive rfl) different found))
      ?_ ?_ h.present nofun
    · intro publication listed
      rcases mem_append.mp listed with old | new
      · exact h.recorded publication old
      · rw [mem_singleton.mp new]
        exact ⟨_,loaded.within,reduced⟩
    · rw [map_append,pairwise_append]
      refine ⟨h.ordered,pairwise_singleton _ _,fun earlier known last new => ?_⟩
      obtain ⟨publication,listed,rfl⟩ := mem_map.mp known
      rw [map_singleton,mem_singleton] at new
      rw [new]
      obtain ⟨done,shorter,before⟩ := loaded.recorded publication listed
      exact before.prefix reduced shorter
  · exact h

theorem stop (uuid : String) (left : Option String) :
    Reflects jobId (sys.stop id uuid left publisher) := by
  unfold PublicationSystem.stop
  split
  · exact h.close
  · rename_i step rest steps
    exact h.abandon found steps uuid left

end Published

theorem forPublisher (h : Reflects jobId sys)
    {f : Publisher → PublicationSystem → PublicationSystem}
    (each : ∀ publisher, sys.publishers id = some publisher → Reflects jobId (f publisher sys)) :
    Reflects jobId (sys.forPublisher id f) := by
  unfold PublicationSystem.forPublisher
  split
  · exact h
  · rename_i publisher found
    exact each publisher found

theorem preserved (h : Reflects jobId sys) (input : PublicationStep) :
    Reflects jobId (sys.step jobId input) := by
  cases input with
  | call call => exact h.call call
  | inventory side file contents =>
    simp only [step]
    split
    · rename_i bare
      exact h.inventory side contents bare
    · exact h
  | start id request hostRepositoryId => exact h.start request hostRepositoryId
  | lock id => exact h.forPublisher fun publisher _ => h.acquire publisher
  | loadJob id => exact h.forPublisher fun _ found => h.load found
  | readPage id hidden => exact h.forPublisher fun _ found => h.readPage found hidden
  | work id uuid outcome => exact h.forPublisher fun _ found => h.work found uuid outcome
  | finish id => exact h.forPublisher fun _ found => h.finish found
  | stop id uuid left => exact h.forPublisher fun _ found => h.stop found uuid left

theorem init (jobId : JobId) (clock : Timestamp) : Reflects jobId (init clock) where
  sound := Store.empty_sound
  numbered := ⟨.nil,nofun,nofun,Nat.one_pos⟩
  exclusive := nofun
  recorded := nofun
  ordered := .nil
  present := fun _ _ _ exists_ => absurd rfl exists_
  phases := nofun

theorem run (jobId : JobId) (clock : Timestamp) (steps : List PublicationStep) :
    Reflects jobId (PublicationSystem.run jobId (PublicationSystem.init clock) steps) :=
  Machine.run_invariant (fun _ input h => h.preserved input) (init jobId clock) steps

end Reflects

def resultSection (output : CompletedStageOutput) : String :=
  "\n## " ++ String.ofList (output.stage.toList.modifyHead Char.toUpper) ++ "\n\n" ++
    output.markdown ++ if output.markdown.toList.getLast?.all (· = '\n') then "" else "\n"

theorem appendOutput_eq (text : String) (output : CompletedStageOutput) :
    appendOutput text output = text ++ resultSection output := by
  have title : capitalized output.stage =
      String.ofList (output.stage.toList.modifyHead Char.toUpper) := by
    unfold capitalized
    split <;> next stage => rw [stage]; rfl
  have closed : Text.endsWith '\n' (text ++ "\n## " ++ capitalized output.stage ++ "\n\n" ++
      output.markdown) = output.markdown.toList.getLast?.all (· = '\n') := by
    rw [Text.endsWith,String.toList_append,String.toList_append,getLast?_append,getLast?_append]
    cases output.markdown.toList.getLast? with
    | none => rfl
    | some last => simp
  unfold appendOutput resultSection
  dsimp only
  rw [closed,title]
  split <;> simp [String.append_assoc]

theorem renderJobResult_eq (outputs : List CompletedStageOutput) :
    renderJobResult outputs = "# Result\n" ++ String.join (outputs.map resultSection) := by
  unfold renderJobResult
  generalize "# Result\n" = text
  induction outputs generalizing text with
  | nil => simp
  | cons output rest ih => simp [ih,appendOutput_eq,String.append_assoc]

structure Rendered (files : ArtifactFiles) (publication : Publication) : Prop where
  loaded : reduceSettledJobOutputs publication.operations publication.events =
    .ok publication.outputs
  result : coordinatorCopy files .result =
    some ("# Result\n" ++ String.join (publication.outputs.map resultSection))
  stages : ∀ file stage, JobArtifactFile.stage file = some stage →
    coordinatorCopy files file =
      ((publication.outputs.filter (fun output => output.stage = stage)).getLast?).map (·.markdown)
  findings : (coordinatorCopy files .findings).isSome = true ↔
    ∃ output ∈ publication.outputs.getLast?, output.findings.isSome = true
  contents : ∀ output ∈ publication.outputs.getLast?, ∀ value ∈ output.findings,
    coordinatorCopy files .findings = some (JsonPretty.render value)

theorem Replacing.rendered (h : Replacing events files job.operations collected outputs []) :
    Rendered files ⟨job.operations, collected, outputs⟩ := by
  have findings : coordinatorCopy files .findings = renderJobFindings outputs :=
    h.goal .findings nofun nofun
  refine ⟨h.reduced,?_,fun file stage staged => ?_,?_,fun output last value found => ?_⟩
  · rw [← renderJobResult_eq]
    exact h.goal .result nofun nofun
  · have same : ∀ output : CompletedStageOutput,
        forStage output.stage = some file ↔ output.stage = stage := by
      intro output
      rw [forStage_iff,staged,Option.some.injEq,eq_comm]
    have copied := h.goal file (by rintro rfl; cases staged) (by rintro rfl; cases staged)
    rw [published_stage (by rw [staged]; rfl)] at copied
    simp only [same] at copied
    exact copied
  · rw [findings,renderJobFindings,Option.isSome_map]
    cases outputs.getLast? with
    | none => simp
    | some last => simp
  · rw [findings,renderJobFindings,last,Option.bind_some,found]
    rfl

theorem forPublisher_finished {f : Publisher → PublicationSystem → PublicationSystem}
    (same : ∀ publisher, (f publisher sys).finished = sys.finished) :
    (sys.forPublisher id f).finished = sys.finished := by
  unfold forPublisher
  split
  · rfl
  · exact same _

theorem step_finished (h : Reflects jobId sys) (input : PublicationStep) :
    (sys.step jobId input).finished = sys.finished ∨
      ∃ publication, (sys.step jobId input).finished = sys.finished ++ [publication] ∧
        Rendered (sys.step jobId input).files publication := by
  cases input with
  | finish id =>
    simp only [step,forPublisher]
    split
    · exact .inl rfl
    · rename_i publisher found
      unfold finish
      split
      · rename_i job collected outputs phase
        have holds := h.phases id publisher found
        rw [phase] at holds
        exact .inr ⟨_,rfl,holds.2.rendered⟩
      · exact .inl rfl
  | call => exact .inl rfl
  | inventory =>
    left
    simp only [step]
    split <;> rfl
  | start =>
    left
    simp only [step,start]
    split <;> rfl
  | lock =>
    refine .inl (forPublisher_finished fun publisher => ?_)
    unfold acquire
    split <;> rfl
  | loadJob =>
    refine .inl (forPublisher_finished fun publisher => ?_)
    unfold load
    split
    · split
      · rfl
      · split <;> rfl
    · rfl
  | readPage =>
    refine .inl (forPublisher_finished fun publisher => ?_)
    unfold readPage follow
    split
    · split <;> rfl
    · split <;> rfl
    · rfl
  | work =>
    refine .inl (forPublisher_finished fun publisher => ?_)
    unfold work
    split
    · rfl
    · dsimp only
      split
      · rfl
      · split <;> rfl
      · split <;> rfl
  | stop =>
    refine .inl (forPublisher_finished fun publisher => ?_)
    unfold stop
    split <;> rfl

theorem published_outputs_grow (jobId : JobId) (clock : Timestamp) (steps : List PublicationStep) :
    let sys := run jobId (init clock) steps
    (sys.finished.map (·.outputs)).Pairwise (· <+: ·) ∧
      ∀ input, (sys.step jobId input).finished = sys.finished ∨
        ∃ publication, (sys.step jobId input).finished = sys.finished ++ [publication] ∧
          Rendered (sys.step jobId input).files publication := by
  have reflects := Reflects.run jobId clock steps
  exact ⟨reflects.ordered,step_finished reflects⟩

end Coordinator
