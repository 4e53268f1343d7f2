import Factory.Coordinator.Recovery
import Factory.Library.Serde

namespace Cli

open Coordinator Json Serde Result

structure FactoryTaskInput where
  task : String
  executionProfile : Option ExecutionProfile
  repositoryId : Option String
  developerInstructions : Option String
  deriving DecidableEq

def profileFromValue (value : Value) : Except String ExecutionProfile := do
  let value ← record "ExecutionProfile" ["provider", "model"] 2 value
  let provider ← field "provider" string value
  let model ← field "model" string value
  pure ⟨provider, model⟩

def taskInputFromValue (value : Value) : Except String FactoryTaskInput := do
  let value ← record "FactoryTaskInput"
    ["task", "executionProfile", "repositoryId", "developerInstructions"] 1 value
  let task ← field "task" string value
  let executionProfile ← nullable "executionProfile" profileFromValue value
  let repositoryId ← nullable "repositoryId" string value
  let developerInstructions ← nullable "developerInstructions" string value
  pure ⟨task, executionProfile, repositoryId, developerInstructions⟩

def providers : List String := ["openai", "anthropic", "deepseek", "zai"]

def normalizeJobProfile (profile : ExecutionProfile) : Option ExecutionProfile :=
  let provider := Text.trim profile.provider
  let model := Text.trim profile.model
  if model = "" ∨ provider ∉ providers then none else some ⟨provider, model⟩

structure BlockingJob where
  job : JobRow
  profile : Option ExecutionProfile
  deriving DecidableEq

def isActive (state : JobState) : Bool := state ∈ [.queued, .running, .cancelling]

def pinnedProfile (job : JobRow) : Option ExecutionProfile :=
  ((taskInputFromValue job.input).toOption.bind (·.executionProfile)).bind normalizeJobProfile

def blockingRequirement (requested : ExecutionProfile) (job : JobRow) : Option BlockingJob :=
  if job.kind ≠ "factory.task" ∨ ¬ isActive job.status then none
  else if pinnedProfile job = some requested then none
  else some ⟨job, pinnedProfile job⟩

def listActiveJobs (s : Store) : List JobRow := s.jobs.filter (isActive ·.status)

def blockers (requested : ExecutionProfile) (s : Store) : List BlockingJob :=
  (listActiveJobs s).filterMap (blockingRequirement requested)

def tasks (s : Store) : List JobRow := (listActiveJobs s).filter (·.kind = "factory.task")

def Names (job : JobRow) (requested : ExecutionProfile) : Prop :=
  ∃ input p, taskInputFromValue job.input = .ok input ∧ input.executionProfile = some p ∧
    Text.trim p.provider = requested.provider ∧ Text.trim p.model = requested.model

structure Verbatim (job : JobRow) : Prop where
  input : job.input.asObject.isSome
  profile : ((job.input.get "executionProfile").bind Value.asObject).isSome
  unpadded : ∀ input p, taskInputFromValue job.input = .ok input → input.executionProfile = some p →
    Text.trim p.provider = p.provider ∧ Text.trim p.model = p.model

variable {requested p : ExecutionProfile} {job : JobRow} {value : Value} {input : FactoryTaskInput}

theorem string_ok {text : String} : string value = .ok text ↔ value = .string text := by
  cases value <;> simp [string]

theorem profile_text (h : profileFromValue value = .ok p) :
    value.asObject.isSome ∧ value.get "provider" = some (.string p.provider) ∧
        value.get "model" = some (.string p.model) ∨
      value.asObject = none ∧ ∀ key, value.get key = none := by
  cases value with
  | object fields =>
    simp only [profileFromValue,record,field,bind_ok,okOr_ok,pure_ok,string_ok] at h
    obtain ⟨_,⟨⟩,_,⟨_,provider,rfl⟩,_,⟨_,model,rfl⟩,rfl⟩ := h
    exact .inl ⟨rfl,provider,model⟩
  | array items => exact .inr ⟨rfl,fun _ => rfl⟩
  | null | bool _ | number _ | string _ => cases h

theorem option_some {α : Type} {decode : Decoder α} {a : α}
    (h : option decode value = .ok (some a)) :
    decode value = .ok a := by
  unfold option at h
  split at h
  · cases h
  · obtain ⟨b,decoded,same⟩ := map_ok.mp h
    cases same
    exact decoded

theorem claimable_iff (decoded : taskInputFromValue job.input = .ok input)
    (profile : input.executionProfile = some p) (a b : String) :
    (job.input.pathText ["executionProfile", "provider"] = some a ∧
        job.input.pathText ["executionProfile", "model"] = some b) ↔
      (job.input.asObject.isSome ∧
        ((job.input.get "executionProfile").bind Value.asObject).isSome) ∧
        p.provider = a ∧ p.model = b := by
  generalize job.input = whole at decoded ⊢
  cases whole with
  | object fields =>
    simp only [taskInputFromValue,record,nullable,bind_ok,pure_ok] at decoded
    obtain ⟨_,⟨⟩,_,-,_,read,_,-,_,-,rfl⟩ := decoded
    cases profile
    cases found : (Value.object fields).get "executionProfile" with
    | none =>
      rw [found] at read
      cases read
    | some value =>
      rw [found,Option.getD_some] at read
      have whole : (Value.object fields).asObject = some fields := rfl
      rcases profile_text (option_some read) with ⟨shape,provider,model⟩ | nothing
      · simp [Value.pathText,Value.path,found,provider,model,shape,whole]
      · simp [Value.pathText,Value.path,found,nothing]
  | array items => simp [Value.pathText,Value.path,Value.get,Value.asObject]
  | null | bool _ | number _ | string _ => cases decoded

theorem normalizeJobProfile_some : normalizeJobProfile p = some requested ↔
    (requested.model ≠ "" ∧ requested.provider ∈ providers) ∧
      Text.trim p.provider = requested.provider ∧ Text.trim p.model = requested.model := by
  simp only [normalizeJobProfile]
  constructor
  · intro h
    split at h
    · cases h
    · next accepted =>
        rw [not_or,not_not] at accepted
        rw [← Option.some.inj h]
        exact ⟨accepted,rfl,rfl⟩
  · rintro ⟨⟨model,known⟩,sameProvider,sameModel⟩
    rw [sameProvider,sameModel,if_neg]
    rintro (empty | unknown)
    · exact model empty
    · exact unknown known

theorem pinnedProfile_some : pinnedProfile job = some requested ↔
    (requested.model ≠ "" ∧ requested.provider ∈ providers) ∧ Names job requested := by
  unfold pinnedProfile Names
  cases decoded : taskInputFromValue job.input with
  | error e => simp [Except.toOption]
  | ok input =>
    simp only [Except.toOption,Option.bind_some,Option.bind_eq_some_iff,
      normalizeJobProfile_some,Except.ok.injEq]
    constructor
    · rintro ⟨p,profile,offered,names⟩
      exact ⟨offered,input,p,rfl,profile,names⟩
    · rintro ⟨offered,_,p,rfl,profile,names⟩
      exact ⟨p,profile,offered,names⟩

theorem profileMatches_iff (task : job.kind = "factory.task") (names : Names job requested) :
    job.profileMatches (some requested) = true ↔ Verbatim job := by
  obtain ⟨input,p,decoded,profile,provider,model⟩ := names
  simp only [JobRow.profileMatches,task,ne_eq,not_true,false_or,Option.any_some,
    decide_eq_true_iff,claimable_iff decoded profile]
  constructor
  · rintro ⟨⟨whole,inner⟩,sameProvider,sameModel⟩
    refine ⟨whole,inner,fun _ _ other same => ?_⟩
    cases decoded.symm.trans other
    cases profile.symm.trans same
    exact ⟨provider.trans sameProvider.symm,model.trans sameModel.symm⟩
  · intro verbatim
    obtain ⟨sameProvider,sameModel⟩ := verbatim.unpadded input p decoded profile
    exact ⟨⟨verbatim.input,verbatim.profile⟩,sameProvider.symm.trans provider,
      sameModel.symm.trans model⟩

theorem blockers_nil (s : Store) :
    blockers requested s = [] ↔ ∀ job ∈ tasks s, pinnedProfile job = some requested := by
  simp only [blockers,tasks,List.filterMap_eq_nil_iff,List.mem_filter]
  refine forall_congr' fun job => ?_
  by_cases pinned : pinnedProfile job = some requested
  · simp [blockingRequirement,pinned]
  · by_cases task : job.kind = "factory.task"
    · by_cases active : isActive job.status = true
      · simp [blockingRequirement,task,pinned,active]
      · simp [listActiveJobs,active]
    · simp [blockingRequirement,task]

theorem guard_agrees_iff (s : Store) (requested : ExecutionProfile) :
    (blockers requested s = [] →
        ∀ job ∈ tasks s, s.workspaceActive job.jobId = true →
          job.profileMatches (some requested) = true) ↔
      (requested.model ≠ "" ∧ requested.provider ∈ providers →
        (∀ job ∈ tasks s, Names job requested) →
          ∀ job ∈ tasks s, s.workspaceActive job.jobId = true → Verbatim job) := by
  have same : (∀ job ∈ tasks s, Names job requested) →
      ((∀ job ∈ tasks s, s.workspaceActive job.jobId = true →
          job.profileMatches (some requested) = true) ↔
        ∀ job ∈ tasks s, s.workspaceActive job.jobId = true → Verbatim job) := fun names =>
    forall₂_congr fun job listed => by
      rw [profileMatches_iff (of_decide_eq_true (List.mem_filter.mp listed).2) (names job listed)]
  constructor
  · intro agrees offered names
    refine (same names).mp (agrees ((blockers_nil s).mpr fun job listed => ?_))
    exact pinnedProfile_some.mpr ⟨offered,names job listed⟩
  · intro verbatim empty job listed
    have pinned := fun job listed => pinnedProfile_some.mp ((blockers_nil s).mp empty job listed)
    have names := fun job listed => (pinned job listed).2
    exact (same names).mpr (verbatim (pinned job listed).1 names) job listed

def paddedModel : Store :=
  { Store.empty with
    jobs := [⟨"job", "factory.task", .object [("task", .string "fix"), ("executionProfile",
      .object [("provider", .string "openai"), ("model", .string "gpt-5 ")])], .queued, 0⟩]
    workspaces := [⟨"job", "remote:1", "/srv/app", "main", "base", "factory/job", "/jobs/job",
      "base", .active⟩] }

theorem guard_misses_padding :
    blockers ⟨"openai", "gpt-5"⟩ paddedModel = [] ∧
      ∃ job ∈ tasks paddedModel, paddedModel.workspaceActive job.jobId = true ∧
        job.profileMatches (some ⟨"openai", "gpt-5"⟩) = false := by
  decide +kernel

end Cli
