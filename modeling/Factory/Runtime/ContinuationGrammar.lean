import Factory.Coordinator.JobLifecycle
import Factory.Coordinator.JobOutline
import Factory.Runtime.ResumePoint

namespace Runtime

open Coordinator Store Result List Text Coordinator.System OperationKind

def feedbackHeading (round : Nat) : String :=
  "\n\n## Follow-up feedback (round " ++ toString round ++ ")\n\n"

def feedbackSection (round : Nat) (feedback : String) : String := feedbackHeading round ++ feedback

def feedbackSections : Nat → List String → String
  | _, [] => ""
  | round, feedback :: rest => feedbackSection round feedback ++ feedbackSections (round + 1) rest

def continuedText (rounds : List String) (task : String) : String :=
  match rounds with
  | [] => task
  | _ :: _ => trimEnd task ++ feedbackSections 1 rounds

def taskText (s : Store) (jobId : JobId) : Option String :=
  (s.findJob jobId).bind (fun job => job.input.text "task")

def grammar (operations : Nat) : List (Nat × String) :=
  (range operations).map (fun n => (n, (atOrdinal n).asWireName))

def feedbackOf (jobId : JobId) (sys : System) (call : Call) : Option String :=
  match sys.store.exec (sys.clock + call.elapsed) call.command, call.command with
  | .ok _, .continueJob id feedback _ => if id = jobId then some (trim feedback) else none
  | _, _ => none

def feedbacks (jobId : JobId) : System → List Call → List String
  | _, [] => []
  | sys, call :: rest => (feedbackOf jobId sys call).toList ++ feedbacks jobId (sys.step call) rest

structure Follows (s : Store) (jobId : JobId) (input : Json.Value) (rounds : List String) :
    Prop where
  plan : s.planOf jobId = grammar (4 + 3 * rounds.length)
  job : ∃ job, s.findJob jobId = some job ∧ job.kind = "factory.task" ∧
    job.input.text "task" = (input.text "task").map (continuedText rounds)
  trimmed : ∀ feedback ∈ rounds, trimEnd feedback = feedback ∧ feedback ≠ ""

variable {s t : Store} {jobId : JobId} {input : Json.Value} {rounds : List String} {now : Timestamp}

theorem feedbackSections_concat (round : Nat) (rounds : List String) (feedback : String) :
    feedbackSections round (rounds ++ [feedback]) =
      feedbackSections round rounds ++ feedbackSection (round + rounds.length) feedback := by
  induction rounds generalizing round with
  | nil => simp [feedbackSections]
  | cons first rest ih =>
    rw [cons_append,feedbackSections,ih,feedbackSections,String.append_assoc,
      length_cons,Nat.add_assoc,Nat.add_comm 1]

theorem continuedTask_eq (task : String) (round : Nat) (feedback : String) :
    continuedTask task round feedback = trimEnd task ++ feedbackSection round feedback := by
  have assoc : ∀ a b c d e : String, a ++ b ++ c ++ d ++ e = a ++ (b ++ c ++ d ++ e) := by
    intro a b c d e
    simp only [String.append_assoc]
  unfold continuedTask feedbackSection feedbackHeading
  exact assoc _ _ _ _ _

theorem trimEnd_sections (task : String) {rounds : List String} (nonempty : rounds ≠ [])
    (trimmed : ∀ feedback ∈ rounds, trimEnd feedback = feedback ∧ feedback ≠ "") :
    trimEnd (task ++ feedbackSections 1 rounds) = task ++ feedbackSections 1 rounds := by
  obtain ⟨before,feedback,rfl⟩ := eq_nil_or_concat' rounds |>.resolve_left nonempty
  obtain ⟨ended,visible⟩ := trimmed feedback (mem_append_right _ mem_cons_self)
  have split : ∀ sections heading : String,
      task ++ (sections ++ (heading ++ feedback)) = task ++ sections ++ heading ++ feedback := by
    intro sections heading
    simp only [String.append_assoc]
  rw [feedbackSections_concat,feedbackSection,split]
  exact trimEnd_append ended visible

theorem trimEnd_continuedText (task : String)
    (trimmed : ∀ feedback ∈ rounds, trimEnd feedback = feedback ∧ feedback ≠ "") :
    trimEnd (continuedText rounds task) = trimEnd task ++ feedbackSections 1 rounds := by
  cases rounds with
  | nil => simp [continuedText,feedbackSections]
  | cons first rest => exact trimEnd_sections _ (cons_ne_nil _ _) trimmed

theorem continuedTask_continuedText (task feedback : String)
    (trimmed : ∀ feedback ∈ rounds, trimEnd feedback = feedback ∧ feedback ≠ "") :
    continuedTask (continuedText rounds task) (rounds.length + 1) feedback =
      continuedText (rounds ++ [feedback]) task := by
  have extended : continuedText (rounds ++ [feedback]) task =
      trimEnd task ++ feedbackSections 1 (rounds ++ [feedback]) := by
    cases rounds <;> rfl
  rw [continuedTask_eq,trimEnd_continuedText task trimmed,extended,feedbackSections_concat,
    Nat.add_comm 1,String.append_assoc]

theorem atOrdinal_round (round : Nat) :
    OperationKind.atOrdinal (4 + 3 * round) = .iterate ∧
      OperationKind.atOrdinal (4 + 3 * round + 1) = .review ∧
      OperationKind.atOrdinal (4 + 3 * round + 2) = .remediate := by
  have beyond : ∀ n, 4 ≤ n → OperationKind.all[n]? = none := by
    intro n bound
    exact getElem?_eq_none bound
  have length : OperationKind.all.length = 4 := rfl
  refine ⟨?_,?_,?_⟩
  · rw [OperationKind.atOrdinal,beyond _ (by omega),length,
      show (4 + 3 * round - 4) % 3 = 0 by omega]
    rfl
  · rw [OperationKind.atOrdinal,beyond _ (by omega),length,
      show (4 + 3 * round + 1 - 4) % 3 = 1 by omega]
    rfl
  · rw [OperationKind.atOrdinal,beyond _ (by omega),length,
      show (4 + 3 * round + 2 - 4) % 3 = 2 by omega]
    rfl

theorem grammar_round (round : Nat) :
    grammar (4 + 3 * (round + 1)) = grammar (4 + 3 * round) ++
      [(4 + 3 * round, "codex.iterate"), (4 + 3 * round + 1, "codex.review"),
        (4 + 3 * round + 2, "codex.remediate")] := by
  obtain ⟨iterate,review,remediate⟩ := atOrdinal_round round
  rw [show 4 + 3 * (round + 1) = 4 + 3 * round + 2 + 1 by omega]
  simp only [grammar,range_succ,map_append,map_cons,map_nil,
    append_assoc,iterate,review,remediate,asWireName]
  rfl

theorem nextOrdinal_grammar {operations : Nat} (plan : s.planOf jobId = grammar operations) :
    s.nextOrdinal jobId = operations := by
  have ordinals : (s.operationsOf jobId).map (·.ordinal + 1) =
      (range operations).map (· + 1) := by
    have mapped := congrArg (map (fun entry => entry.1 + 1)) plan
    simpa [planOf,grammar,Function.comp_def] using mapped
  rw [nextOrdinal,ordinals,foldl_max_range]

theorem continuationRound_grammar (round : Nat) :
    continuationRound (4 + 3 * round) = .ok (round + 1) := by
  unfold continuationRound ensure
  rw [if_pos (by omega),show (4 + 3 * round - 4) / 3 + 1 = round + 1 by omega]
  rfl

theorem Follows.steady (h : Follows s jobId input rounds) (steady : Steady s t jobId) :
    Follows t jobId input rounds := by
  obtain ⟨job,found,kind,text⟩ := h.job
  have same := steady.definition
  rw [definitionOf,definitionOf,found] at same
  obtain ⟨job',found',equal⟩ := Option.map_eq_some_iff.mp same
  obtain ⟨sameKind,sameInput⟩ := Prod.mk.inj equal
  refine ⟨steady.plan.trans h.plan,⟨job',found',?_,?_⟩,h.trimmed⟩
  · rw [sameKind,kind]
  · rw [sameInput,text]

theorem text_set {value : Json.Value} {key old new : String} (present : value.text key = some old) :
    (value.set key (.string new)).text key = some new := by
  cases value with
  | object fields =>
    rw [Json.Value.text,Json.Value.get_set_self]
    rfl
  | null | bool | number | string | array => contradiction

variable {newId : Nat → OperationId} {sys : System} {lease : RecoveryLease}

theorem Follows.continueJob {feedback : String} {job : JobRow} {round : Nat} {task : String}
    (h : Follows s jobId input rounds)
    (continued : Continued now s t jobId feedback newId job round task) :
    Follows t jobId input (rounds ++ [trim feedback]) := by
  have next := nextOrdinal_grammar h.plan
  have counted := continued.counted
  rw [next,continuationRound_grammar] at counted
  obtain rfl := Except.ok.inj counted
  obtain ⟨job',found,kind,text⟩ := h.job
  obtain rfl := Option.some.inj (found.symm.trans continued.found)
  obtain ⟨-,named⟩ := findJob_some found
  refine ⟨?_,?_,?_⟩
  · rw [planOf_insert continued.operations,if_pos rfl,h.plan,next,length_append,
      length_singleton,grammar_round]
    rfl
  · have updated := continued.findJob jobId
    rw [found,Option.map_some,if_pos named] at updated
    refine ⟨_,updated,continued.factory,?_⟩
    rw [continued.text] at text
    obtain ⟨original,given,same⟩ := Option.map_eq_some_iff.mp text.symm
    rw [text_set continued.text,given,Option.map_some,← same,
      continuedTask_continuedText original (trim feedback) h.trimmed]
  · intro entry mem
    rcases mem_append.mp mem with old | new
    · exact h.trimmed entry old
    · rw [mem_singleton.mp new]
      exact ⟨trimEnd_trim feedback,continued.nonblank⟩

theorem agrees_steady {u : Store} (agrees : Agrees t u) (h : Steady s t jobId) :
    Steady s u jobId := by
  obtain ⟨jobs,operations,-⟩ := agrees
  refine ⟨?_,?_⟩
  · rw [← h.plan,planOf,planOf,operationsOf,operations]
    rfl
  · rw [← h.definition,definitionOf,definitionOf,findJob,jobs]
    rfl

theorem continues_some {command : Command} (h : command.continues = some jobId) :
    ∃ feedback newId, command = .continueJob jobId feedback newId := by
  cases command with
  | continueJob id feedback newId =>
    obtain rfl := Option.some.inj h
    exact ⟨feedback,newId,rfl⟩
  | _ => contradiction

theorem feedbackOf_none {call : Call} (h : call.command.continues = none) :
    feedbackOf jobId sys call = none := by
  unfold feedbackOf
  split
  · next executed command =>
    rw [command] at h
    contradiction
  · rfl

theorem step_follows (call : Call) (h : Follows sys.store jobId input rounds) :
    Follows (sys.step call).store jobId input (rounds ++ (feedbackOf jobId sys call).toList) := by
  obtain ⟨job,found,-⟩ := h.job
  cases executed : sys.store.exec (sys.clock + call.elapsed) call.command with
  | error failure =>
    simp only [feedbackOf,step,executed,Option.toList_none,append_nil]
    exact h
  | ok result =>
    obtain ⟨response,store⟩ := result
    have stepped : (sys.step call).store = store := by
      simp only [step,executed]
    rw [stepped]
    cases continues : call.command.continues with
    | none =>
      rw [feedbackOf_none continues,Option.toList_none,append_nil]
      obtain ⟨t,transition,agrees⟩ := exec_transition executed
      rw [continues] at transition
      refine h.steady (agrees_steady agrees ?_)
      rcases transition.outlined with outlined | ⟨definition,id,newId,created⟩
      · exact outlined.steady jobId
      · exact createJob_steady created found
    | some id =>
      obtain ⟨feedback,newId,command⟩ := continues_some continues
      rw [command] at executed
      have given : feedbackOf jobId sys call =
          if id = jobId then some (trim feedback) else none := by
        simp only [feedbackOf,command,executed]
      simp only [exec,map_ok,Prod.mk.injEq] at executed
      obtain ⟨t,result,-,rfl⟩ := executed
      obtain ⟨job,round,task,continued⟩ := continueJob_continued result
      rw [given]
      by_cases same : id = jobId
      · subst same
        rw [if_pos rfl]
        exact h.continueJob continued
      · rw [if_neg same,Option.toList_none,append_nil]
        exact h.steady (continued.steady same)

theorem run_follows (calls : List Call) (h : Follows sys.store jobId input rounds) :
    Follows (sys.run calls).store jobId input (rounds ++ feedbacks jobId sys calls) := by
  induction calls generalizing sys rounds with
  | nil =>
    rw [feedbacks,append_nil]
    exact h
  | cons call rest ih =>
    rw [feedbacks,← append_assoc]
    exact ih (step_follows call h)

def BaseTask (definition : JobDefinition) : Prop :=
  definition.kind = "factory.task" ∧
    definition.operations.map (·.kind) = all.map asWireName

theorem base_grammar {operations : List OperationDefinition}
    (base : operations.map (·.kind) = all.map asWireName) :
    (operations.zipIdx 0).map (fun entry => (entry.2, entry.1.kind)) = grammar 4 := by
  have kinds : (operations.zipIdx 0).map (fun entry => (entry.2, entry.1.kind)) =
      ((operations.map (·.kind)).zipIdx 0).map (fun entry => (entry.2, entry.1)) := by
    rw [zipIdx_map,map_map]
    rfl
  rw [kinds,base]
  rfl

theorem createJob_follows {definition : JobDefinition} (wellFormed : s.WellFormed)
    (base : BaseTask definition) (created : s.createJob now definition jobId newId = .ok t) :
    Follows t jobId definition.input [] := by
  obtain ⟨-,-,fresh,-,result⟩ := createJob_ok created
  have rows : t.operations = s.operations ++
      operationRows now jobId newId definition.operations 0 := by rw [result]
  have empty : s.planOf jobId = [] := by
    rw [planOf,operationsOf_fresh wellFormed fresh]
    rfl
  have absent : s.jobs.find? (fun j => j.jobId = jobId) = none :=
    find?_eq_none.mpr fun j mem same => fresh j mem (of_decide_eq_true same)
  have found : t.findJob jobId =
      some ⟨jobId,definition.kind,definition.input,.queued,now⟩ := by
    rw [findJob,result,find?_append,absent]
    simp
  refine ⟨?_,⟨_,found,base.1,?_⟩,?_⟩
  · rw [planOf_insert rows,if_pos rfl,empty,nil_append,base_grammar base.2]
    rfl
  · cases definition.input.text "task" <;> rfl
  · intro feedback mem
    exact absurd mem not_mem_nil

theorem mem_grammar {operations n : Nat} {kind : String} (h : (n, kind) ∈ grammar operations) :
    kind = (atOrdinal n).asWireName := by
  obtain ⟨m,-,same⟩ := mem_map.mp h
  obtain ⟨rfl,rfl⟩ := Prod.mk.inj same
  rfl

theorem Follows.row (h : Follows s jobId input rounds) {n : Nat} {o : OperationRow}
    (found : (s.operationsOf jobId)[n]? = some o) :
    o.ordinal = n ∧ o.kind = (atOrdinal n).asWireName := by
  have planned : (s.planOf jobId)[n]? = some (o.ordinal, o.kind) := by
    rw [planOf,getElem?_map,found]
    rfl
  rw [h.plan,grammar,getElem?_map] at planned
  obtain ⟨m,ranged,same⟩ := Option.map_eq_some_iff.mp planned
  obtain ⟨bound,rfl⟩ := List.getElem?_eq_some_iff.mp ranged
  rw [getElem_range] at same
  obtain ⟨ordinal,kind⟩ := Prod.mk.inj same
  exact ⟨ordinal.symm,kind.symm⟩

theorem Follows.shape (h : Follows s jobId input rounds) {context : OperationExecutionContext}
    (job : context.job.jobId = jobId) (factory : context.job.kind = "factory.task") :
    validateJobShape s context (atOrdinal context.operation.ordinal) = .ok () := by
  have length : (s.operationsOf jobId).length = 4 + 3 * rounds.length := by
    have lengths := congrArg length h.plan
    simpa [planOf,grammar] using lengths
  simp only [validateJobShape,bind_ok,ensure_ok,job]
  refine ⟨(),factory,(),⟨?_,?_⟩,(),forM_ok_of ?_,trivial⟩
  · rw [length]
    exact Nat.le_add_right 4 _
  · rw [length,show all.length = 4 from rfl,Nat.add_sub_cancel_left]
    exact Nat.mul_mod_right 3 _
  · rintro ⟨o,n⟩ mem
    have found := mem_zipIdx_iff_getElem?.mp mem
    exact ensure_ok.mpr (h.row found)

structure Grammar (s : Store) (jobId : JobId) (input : Json.Value) (rounds : List String) :
    Prop where
  count : (s.operationsOf jobId).length = 4 + 3 * rounds.length
  kinds : ∀ n o, (s.operationsOf jobId)[n]? = some o →
    o.ordinal = n ∧ o.kind = (atOrdinal n).asWireName
  round : continuationRound (s.nextOrdinal jobId) = .ok (rounds.length + 1)
  text : taskText s jobId = (input.text "task").map (continuedText rounds)

theorem Follows.grammar (h : Follows s jobId input rounds) : Grammar s jobId input rounds := by
  obtain ⟨job,found,-,text⟩ := h.job
  refine ⟨?_,fun n o => h.row,?_,?_⟩
  · have lengths := congrArg length h.plan
    simpa [planOf,Runtime.grammar] using lengths
  · rw [nextOrdinal_grammar h.plan,continuationRound_grammar]
  · rw [taskText,found]
    exact text

theorem loadContext_rows {context : OperationExecutionContext}
    (h : loadContext s lease = some context) :
    s.findJob context.job.jobId = some context.job ∧
      context.operation ∈ s.operationsOf context.job.jobId := by
  simp only [loadContext,Option.bind_eq_bind,Option.bind_eq_some_iff,Option.pure_def,
    Option.some.injEq] at h
  obtain ⟨job,found,operation,member,rfl⟩ := h
  obtain ⟨-,named⟩ := findJob_some found
  refine ⟨?_,mem_of_find?_eq_some member⟩
  rw [named]
  exact found

theorem Follows.context {context : OperationExecutionContext} (h : Follows s jobId input rounds)
    (loaded : loadContext s lease = some context) (owned : context.job.jobId = jobId) :
    context.job.kind = "factory.task" ∧ fromStr context.operation.kind =
      .ok (atOrdinal context.operation.ordinal) := by
  obtain ⟨found,member⟩ := loadContext_rows loaded
  rw [owned] at found member
  obtain ⟨job,same,kind,-⟩ := h.job
  obtain rfl := Option.some.inj (found.symm.trans same)
  refine ⟨kind,?_⟩
  have planned : (context.operation.ordinal, context.operation.kind) ∈ s.planOf jobId :=
    mem_map_of_mem member
  rw [h.plan] at planned
  rw [mem_grammar planned]
  exact fromStr_asWireName _

theorem continuation_grammar {clock : Timestamp} {before : List Call} {elapsed : Nat}
    {definition : JobDefinition} {jobId : JobId} {newId : Nat → OperationId} {sys : System}
    (created : sys = ((init clock).run before).step
      ⟨elapsed, .createJob definition jobId newId⟩)
    (base : BaseTask definition)
    (accepted : ∃ result, ((init clock).run before).store.createJob
      (((init clock).run before).clock + elapsed) definition jobId newId = .ok result)
    (calls : List Call) :
    Grammar (sys.run calls).store jobId definition.input (feedbacks jobId sys calls) ∧
    ∀ earlier later, calls = earlier ++ later → ∀ lease context,
      loadContext (sys.run earlier).store lease = some context → context.job.jobId = jobId →
      ∃ kind, fromStr context.operation.kind = .ok kind ∧
        validateJobShape (sys.run calls).store context kind = .ok () := by
  obtain ⟨result,accepted⟩ := accepted
  have sound := sound_run clock before
  have start : Follows sys.store jobId definition.input [] := by
    have stepped : sys.store = result := by
      simp only [created,step,exec,accepted]
      rfl
    rw [stepped]
    exact createJob_follows sound.wellFormed base accepted
  have follows : ∀ calls, Follows (sys.run calls).store jobId definition.input
      (feedbacks jobId sys calls) := fun calls => run_follows calls start
  refine ⟨(follows calls).grammar,?_⟩
  intro earlier later split lease context loaded owned
  obtain ⟨factory,kind⟩ := (follows earlier).context loaded owned
  exact ⟨_,kind,(follows calls).shape owned factory⟩

def clarifiedTask : JobDefinition :=
  ⟨"factory.task",
    .object [("task", .string "Fix it.\n\n## Clarifications\n\nQ: Where?\nA: Here.\n"),
      ("executionProfile", .object [("provider", .string "openai"), ("model", .string "gpt")])],
    all.map (fun kind => ⟨kind.asWireName, .object [], 3⟩)⟩

def clarifiedSystem : System :=
  (init 0).step ⟨0, .createJob clarifiedTask "job" (fun ordinal => toString ordinal)⟩

def claimNext (attemptId : AttemptId) : Command :=
  .claimRecovery .any ⟨"worker", 60, some ⟨"openai", "gpt"⟩⟩ [] attemptId

def continuedCalls : List Call :=
  ⟨0, .putWorkspace ⟨"job", "repository", "path", "main", "base", "branch", "root", "base"⟩⟩ ::
    ["1", "2", "3", "4"].flatMap (fun id =>
      [⟨0, claimNext id⟩, ⟨0, .settleAttempt ⟨id, "worker", 1⟩ .succeeded none none ""⟩]) ++
    [⟨0, .continueJob "job" " Test it. " (fun ordinal => toString ordinal)⟩, ⟨0, claimNext "5"⟩]

def continuedLease : Option RecoveryLease :=
  match (clarifiedSystem.run continuedCalls.dropLast).store.exec 0 (claimNext "5") with
  | .ok (.lease lease, _) => lease
  | _ => none

theorem continuation_grammar_continued :
    feedbacks "job" clarifiedSystem continuedCalls = ["Test it."] ∧
      Grammar (clarifiedSystem.run continuedCalls).store "job" clarifiedTask.input
        (feedbacks "job" clarifiedSystem continuedCalls) ∧
      ∃ lease ∈ continuedLease, ∃ context,
        loadContext (clarifiedSystem.run continuedCalls).store lease = some context ∧
        context.operation.ordinal = 4 ∧ ∃ kind, fromStr context.operation.kind = .ok kind ∧
          validateJobShape (clarifiedSystem.run continuedCalls).store context kind = .ok () := by
  obtain ⟨grammar,shapes⟩ := @continuation_grammar 0 [] 0 clarifiedTask "job"
    (fun ordinal => toString ordinal) clarifiedSystem rfl ⟨rfl,rfl⟩ ⟨_,rfl⟩ continuedCalls
  have claimed : (continuedLease.bind (loadContext (clarifiedSystem.run continuedCalls).store)).map
      (fun context => (context.job.jobId, context.operation.ordinal)) = some ("job", 4) := by
    decide +kernel
  obtain ⟨context,found,same⟩ := Option.map_eq_some_iff.mp claimed
  obtain ⟨lease,held,loaded⟩ := Option.bind_eq_some_iff.mp found
  obtain ⟨job,ordinal⟩ := Prod.mk.inj same
  have shape := shapes continuedCalls [] (append_nil _).symm lease context loaded job
  exact ⟨by decide +kernel,grammar,lease,held,context,loaded,ordinal,shape⟩

theorem clarified_task_keeps_trailing_whitespace :
    ∃ task, clarifiedTask.input.text "task" = some task ∧
      taskText clarifiedSystem.store "job" ≠
        some (trimEnd task ++ feedbackSections 1 (feedbacks "job" clarifiedSystem [])) := by
  refine ⟨_,rfl,?_⟩
  decide

end Runtime
