import Factory.Library.LastWrite
import Factory.Coordinator.Artifacts

namespace Coordinator

open Result LastWrite List JobArtifactFile Function FileStep

namespace JobArtifactFile

variable {file : JobArtifactFile}

theorem fileName_injective {other : JobArtifactFile} (h : file.fileName = other.fileName) :
    file = other := by
  revert h
  cases file <;> cases other <;> decide

theorem temporaryName_ne (file other : JobArtifactFile) (uuid : String) :
    other.fileName ≠ file.temporaryName uuid := by
  intro same
  have dotted : (file.temporaryName uuid).toList.head? = some '.' := by
    simp [temporaryName,String.toList_append]
  rw [← same] at dotted
  revert dotted
  cases other <;> decide

def stage : JobArtifactFile → Option String
  | .plan => some "plan"
  | .execute => some "execute"
  | .iterate => some "iterate"
  | .review => some "review"
  | .remediate => some "remediate"
  | .job | .task | .result | .findings => none

theorem forStage_iff {stage : String} :
    forStage stage = some file ↔ file.stage = some stage := by
  constructor
  · intro h
    unfold forStage at h
    split_ifs at h with plan execute iterate review remediate
    all_goals cases h
    · rw [plan]
      rfl
    · rw [execute]
      rfl
    · rw [iterate]
      rfl
    · rw [review]
      rfl
    · rw [remediate]
      rfl
  · intro h
    cases file <;> cases h <;> rfl

end JobArtifactFile

def coordinatorCopy (files : ArtifactFiles) (file : JobArtifactFile) : Option String :=
  files (.coordinator, file.fileName)

namespace FileStep

def assigns (files : ArtifactFiles) : FileStep → Option (JobArtifactFile × Option String)
  | .replace .coordinator file contents => some (file, some contents)
  | .writeTemporary .coordinator file contents => some (file, some contents)
  | .rename .coordinator file uuid => some (file, files (.coordinator, file.temporaryName uuid))
  | .remove .coordinator file => some (file, none)
  | _ => none

def planned : FileStep → Bool
  | .replace _ _ _ => true
  | .remove _ _ => true
  | _ => false

def repairs : FileStep → Bool
  | .repair _ _ => true
  | _ => false

end FileStep

def foretell (files : ArtifactFiles) (steps : List FileStep) : JobArtifactFile → Option String :=
  writes (steps.filterMap (assigns files)) (coordinatorCopy files)

section Foretelling

variable {files later : ArtifactFiles} {step : FileStep} {rest next : List FileStep}
  {projects : Bool} {uuid : String}

theorem FileStep.assigns_planned (h : step.planned = true) :
    step.assigns later = step.assigns files := by
  cases step with
  | replace side _ _ | remove side _ => cases side <;> rfl
  | writeTemporary | rename | repair => cases h

theorem foretell_rest (planned : ∀ later ∈ rest, later.planned = true) :
    rest.filterMap (assigns later) = rest.filterMap (assigns files) :=
  filterMap_congr fun step listed => assigns_planned (planned step listed)

theorem foretell_cons (step : FileStep) (rest : List FileStep) :
    foretell files (step :: rest) =
      writes (rest.filterMap (assigns files))
        (writes (step.assigns files).toList (coordinatorCopy files)) := by
  unfold foretell
  rw [← writes_append]
  cases assigned : step.assigns files with
  | none => rw [filterMap_cons_none assigned,Option.toList_none,nil_append]
  | some entry => rw [filterMap_cons_some assigned,Option.toList_some,singleton_append]

theorem coordinatorCopy_update_temporary (side : ArtifactSide) (file : JobArtifactFile)
    (contents : Option String) :
    coordinatorCopy (update files (side, file.temporaryName uuid) contents) =
      coordinatorCopy files := by
  funext other
  refine update_of_ne ?_ _ _
  intro same
  exact file.temporaryName_ne other uuid (congrArg Prod.snd same)

theorem coordinatorCopy_update_projection (name : String) (contents : Option String) :
    coordinatorCopy (update files (.projection, name) contents) =
      coordinatorCopy files := by
  funext other
  refine update_of_ne ?_ _ _
  intro same
  cases congrArg Prod.fst same

theorem coordinatorCopy_update (file : JobArtifactFile) (contents : Option String) :
    coordinatorCopy (update files (.coordinator, file.fileName) contents) =
      update (coordinatorCopy files) file contents := by
  funext other
  unfold coordinatorCopy
  by_cases same : other = file
  · subst same
    rw [update_self,update_self]
  · rw [update_of_ne same,update_of_ne]
    intro located
    exact same (fileName_injective (congrArg Prod.snd located))

theorem writeJobFile_step {file : JobArtifactFile} {contents : String} {step : FileStep}
    (h : step ∈ writeJobFile projects file contents) :
    step.planned = true ∧ step.file = file := by
  cases projects
  all_goals
    simp only [writeJobFile,projected,Bool.false_eq_true,if_false,if_true,mem_cons,
      not_mem_nil,or_false] at h
    rcases h with rfl | rfl <;> exact ⟨rfl,rfl⟩

structure Performs (files later : ArtifactFiles) (step : FileStep) (next : List FileStep) :
    Prop where
  others : ∀ file, file ≠ step.file → coordinatorCopy later file = coordinatorCopy files file
  file : ∀ follow ∈ next, follow.file = step.file
  single : step.repairs = false → next.length ≤ 1 ∧ ∀ follow ∈ next, follow.repairs = false
  landed : step.repairs = false →
    writes (next.filterMap (assigns later)) (coordinatorCopy later) =
      writes (step.assigns files).toList (coordinatorCopy files)

theorem performs (h : step.perform projects uuid files = some (next, later)) :
    Performs files later step next := by
  cases step with
  | replace side file contents =>
    obtain ⟨rfl,rfl⟩ := Prod.mk.inj (Option.some.inj h)
    exact ⟨fun _ _ => rfl,by simp [FileStep.file],fun _ => by simp [FileStep.repairs],
      fun _ => by cases side <;> rfl⟩
  | writeTemporary side file contents =>
    obtain ⟨rfl,rfl⟩ := Prod.mk.inj (Option.some.inj h)
    refine ⟨fun _ _ => by rw [coordinatorCopy_update_temporary],by simp [FileStep.file],
      fun _ => by simp [FileStep.repairs],fun _ => ?_⟩
    rw [coordinatorCopy_update_temporary]
    cases side with
    | coordinator => simp [FileStep.assigns]
    | projection => rfl
  | rename side file temporary =>
    obtain ⟨contents,found,same⟩ := Option.map_eq_some_iff.mp h
    obtain ⟨rfl,rfl⟩ := Prod.mk.inj same
    cases side with
    | coordinator =>
      refine ⟨fun other different => ?_,nofun,fun _ => ⟨Nat.zero_le 1,nofun⟩,fun _ => ?_⟩
      · rw [coordinatorCopy_update,coordinatorCopy_update_temporary]
        exact update_of_ne different _ _
      · rw [coordinatorCopy_update,coordinatorCopy_update_temporary,FileStep.assigns,found]
        rfl
    | projection =>
      refine ⟨fun _ _ => ?_,nofun,fun _ => ⟨Nat.zero_le 1,nofun⟩,fun _ => ?_⟩
      all_goals rw [coordinatorCopy_update_projection,coordinatorCopy_update_projection]
      rfl
  | remove side file =>
    obtain ⟨rfl,rfl⟩ := Prod.mk.inj (Option.some.inj h)
    cases side with
    | coordinator =>
      refine ⟨fun other different => ?_,nofun,fun _ => ⟨Nat.zero_le 1,nofun⟩,fun _ => ?_⟩
      · rw [coordinatorCopy_update]
        exact update_of_ne different _ _
      · rw [coordinatorCopy_update]
        rfl
    | projection =>
      refine ⟨fun _ _ => ?_,nofun,fun _ => ⟨Nat.zero_le 1,nofun⟩,fun _ => ?_⟩
      all_goals rw [coordinatorCopy_update_projection]
      rfl
  | repair file generated =>
    simp only [FileStep.perform] at h
    split at h
    all_goals
      obtain ⟨rfl,rfl⟩ := Prod.mk.inj (Option.some.inj h)
      refine ⟨fun _ _ => rfl,?_,nofun,nofun⟩
    · unfold projected
      split
      · simp [FileStep.file]
      · exact nofun
    · exact fun follow listed => (writeJobFile_step listed).2

theorem foretell_perform (h : Performs files later step next) (publishing : step.repairs = false)
    (planned : ∀ later ∈ rest, later.planned = true) :
    foretell later (next ++ rest) = foretell files (step :: rest) := by
  rw [foretell_cons,foretell,filterMap_append,writes_append,h.landed publishing,
    foretell_rest planned]

theorem foretell_projection (side : step.side = .projection) (left : Option String)
    (planned : ∀ later ∈ rest, later.planned = true) :
    foretell (step.disturb uuid left files) rest = foretell files (step :: rest) := by
  have copy : coordinatorCopy (step.disturb uuid left files) = coordinatorCopy files := by
    cases step with
    | writeTemporary | rename => exact coordinatorCopy_update_temporary _ _ _
    | replace | remove | repair => rfl
  have silent : step.assigns files = none := by
    cases step with
    | replace | writeTemporary | rename | remove =>
      cases side
      rfl
    | repair => rfl
  rw [foretell_cons,silent,foretell,copy,foretell_rest planned]
  rfl

end Foretelling

section Planning

variable {projects : Bool} {outputs : List CompletedStageOutput} {steps : List FileStep}
  {files : ArtifactFiles}

theorem writeJobFile_assigns (file : JobArtifactFile) (contents : String) :
    (writeJobFile projects file contents).filterMap (assigns files) =
      [(file, some contents)] := by
  cases projects <;> rfl

theorem removeJobFile_assigns (file : JobArtifactFile) :
    (removeJobFile projects file).filterMap (assigns files) = [(file, none)] := by
  cases projects <;> rfl

variable {step : FileStep} {file : JobArtifactFile} {entry : JobArtifactFile × String}
  {entries : List (JobArtifactFile × String)}

theorem removeJobFile_step (h : step ∈ removeJobFile projects file) :
    step.planned = true ∧ step.file = file := by
  cases projects
  all_goals
    simp only [removeJobFile,projected,Bool.false_eq_true,if_false,if_true,mem_cons,
      not_mem_nil,or_false] at h
    rcases h with rfl | rfl <;> exact ⟨rfl,rfl⟩

theorem stageFile_ok {output : CompletedStageOutput} (h : stageFile output = .ok entry) :
    forStage output.stage = some entry.1 ∧ entry.2 = output.markdown := by
  simp only [stageFile,bind_ok,okOr_ok,pure_ok] at h
  obtain ⟨file,found,rfl⟩ := h
  exact ⟨found,rfl⟩

theorem stageFiles_filter (h : outputs.mapM stageFile = .ok entries) (file : JobArtifactFile) :
    (entries.filter (fun entry => entry.1 = file)).map Prod.snd =
      (outputs.filter (fun output => forStage output.stage = some file)).map
        (·.markdown) := by
  induction outputs generalizing entries with
  | nil =>
    obtain rfl := pure_ok.mp h
    rfl
  | cons output rest ih =>
    simp only [mapM_cons,bind_ok,pure_ok] at h
    obtain ⟨entry,first,others,remaining,rfl⟩ := h
    obtain ⟨found,text⟩ := stageFile_ok first
    by_cases same : entry.1 = file
    · rw [filter_cons_of_pos (by simpa using same),
        filter_cons_of_pos (by simpa [found] using same),map_cons,map_cons,text,
        ih remaining]
    · rw [filter_cons_of_neg (by simpa using same),
        filter_cons_of_neg (by simpa [found] using same),ih remaining]

theorem stageFiles_known (h : outputs.mapM stageFile = .ok entries) (listed : entry ∈ entries) :
    ∃ output ∈ outputs, forStage output.stage = some entry.1 := by
  obtain ⟨output,known,found⟩ := (mapM_ok h).2.2 entry listed
  exact ⟨output,known,(stageFile_ok found).1⟩

theorem stageSteps_assigns (entries : List (JobArtifactFile × String)) :
    (stageSteps projects entries).filterMap (assigns files) =
      entries.map (fun entry => (entry.1, some entry.2)) := by
  induction entries with
  | nil => rfl
  | cons entry rest ih =>
    rw [stageSteps,flatMap_cons,filterMap_append,writeJobFile_assigns,
      map_cons,singleton_append]
    exact congrArg _ ih

theorem publishSettledOutputs_ok (h : publishSettledOutputs projects outputs = .ok steps) :
    ∃ entries, outputs.mapM stageFile = .ok entries ∧
      ((∃ findings, renderJobFindings outputs = some findings ∧
          steps = stageSteps projects entries ++ writeJobFile projects .findings findings ++
            writeJobFile projects .result (renderJobResult outputs)) ∨
        renderJobFindings outputs = none ∧
          steps = removeJobFile projects .findings ++ stageSteps projects entries ++
            writeJobFile projects .result (renderJobResult outputs)) := by
  unfold publishSettledOutputs at h
  obtain ⟨entries,mapped,rest⟩ := bind_ok.mp h
  refine ⟨entries,mapped,?_⟩
  cases found : renderJobFindings outputs with
  | some findings =>
    simp only [found] at rest
    exact .inl ⟨findings,rfl,(pure_ok.mp rest).symm⟩
  | none =>
    simp only [found] at rest
    exact .inr ⟨rfl,(pure_ok.mp rest).symm⟩

def published (outputs : List CompletedStageOutput) (file : JobArtifactFile) : Option String :=
  match file with
  | .result => some (renderJobResult outputs)
  | .findings => renderJobFindings outputs
  | stage => (outputs.filter (fun output =>
    forStage output.stage = some stage)).getLast?.map (·.markdown)

theorem published_stage (staged : file.stage.isSome = true) :
    published outputs file = (outputs.filter (fun output =>
      forStage output.stage = some file)).getLast?.map (·.markdown) := by
  cases file with
  | job | task | result | findings => cases staged
  | plan | execute | iterate | review | remediate => rfl

theorem entries_unstaged (h : outputs.mapM stageFile = .ok entries) (unstaged : file.stage = none) :
    (entries.map (fun entry => (entry.1, some entry.2))).filter (fun entry => entry.1 = file) =
      [] := by
  refine filter_eq_nil_iff.mpr fun assigned listed hit => ?_
  obtain ⟨entry,known,rfl⟩ := mem_map.mp listed
  obtain ⟨output,-,found⟩ := stageFiles_known h known
  rw [of_decide_eq_true hit,forStage_iff,unstaged] at found
  cases found

theorem entries_staged (h : outputs.mapM stageFile = .ok entries)
    (staged : file.stage.isSome = true) :
    (((entries.map (fun entry => (entry.1, some entry.2))).filter
      (fun entry => entry.1 = file)).getLast?.map Prod.snd) =
      (published outputs file).map some := by
  have texts := congrArg getLast? (stageFiles_filter h file)
  rw [getLast?_map,getLast?_map] at texts
  rw [published_stage staged,← texts,filter_map,getLast?_map,Option.map_map,
    Option.map_map]
  rfl

theorem plan_foretells (h : publishSettledOutputs projects outputs = .ok steps)
    (files : ArtifactFiles) (file : JobArtifactFile) :
    (file = .result ∨ file = .findings → foretell files steps file = published outputs file) ∧
      (file.stage.isSome = true →
        foretell files steps file = (published outputs file).or (coordinatorCopy files file)) := by
  obtain ⟨entries,mapped,⟨findings,rendered,rfl⟩ | ⟨rendered,rfl⟩⟩ := publishSettledOutputs_ok h
  all_goals
    rw [foretell,writes_apply,filterMap_append,filterMap_append,writeJobFile_assigns,
      stageSteps_assigns,filter_append,filter_append]
    refine ⟨?_,fun staged => ?_⟩
    · rintro (rfl | rfl)
      all_goals
        rw [entries_unstaged mapped rfl]
        simp [published,rendered,writeJobFile_assigns,removeJobFile_assigns]
    · have other : file ≠ .result ∧ file ≠ .findings := by
        constructor
        all_goals
          rintro rfl
          cases staged
      have last := entries_staged mapped staged
      simp only [writeJobFile_assigns,removeJobFile_assigns,filter_cons,filter_nil,
        decide_eq_false other.1.symm,decide_eq_false other.2.symm,if_neg Bool.false_ne_true,
        append_nil,nil_append,last]
      cases published outputs file <;> rfl

structure Serves (outputs : List CompletedStageOutput) (step : FileStep) : Prop where
  planned : step.planned = true
  stage : ∀ stage, step.file.stage = some stage → ∃ output ∈ outputs, output.stage = stage

theorem Serves.unstaged (h : step.planned = true ∧ step.file = file)
    (unstaged : file.stage = none) :
    Serves outputs step := by
  refine ⟨h.1,fun stage staged => ?_⟩
  rw [h.2,unstaged] at staged
  cases staged

theorem stageSteps_serve (h : outputs.mapM stageFile = .ok entries)
    (listed : step ∈ stageSteps projects entries) : Serves outputs step := by
  obtain ⟨entry,known,written⟩ := mem_flatMap.mp listed
  obtain ⟨planned,file⟩ := writeJobFile_step written
  obtain ⟨output,mem,found⟩ := stageFiles_known h known
  refine ⟨planned,fun stage staged => ⟨output,mem,?_⟩⟩
  rw [file] at staged
  exact Option.some.inj ((forStage_iff.mp found).symm.trans staged)

theorem plan_serves (h : publishSettledOutputs projects outputs = .ok steps) :
    ∀ step ∈ steps, Serves outputs step := by
  obtain ⟨entries,mapped,⟨findings,-,rfl⟩ | ⟨-,rfl⟩⟩ := publishSettledOutputs_ok h
  all_goals
    intro step listed
    rcases mem_append.mp listed with before | result
    swap
    · exact .unstaged (writeJobFile_step result) rfl
    rcases mem_append.mp before with first | second
  · exact stageSteps_serve mapped first
  · exact .unstaged (writeJobFile_step second) rfl
  · exact .unstaged (removeJobFile_step first) rfl
  · exact stageSteps_serve mapped second

end Planning

end Coordinator
