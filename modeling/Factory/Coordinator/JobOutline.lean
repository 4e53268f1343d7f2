import Factory.Coordinator.WellFormed

namespace Coordinator

open Result Table List

def OperationRow.outline (o : OperationRow) : JobId × Nat × String := (o.jobId, o.ordinal, o.kind)

def JobRow.outline (j : JobRow) : JobId × String × Json.Value := (j.jobId, j.kind, j.input)

namespace Store

def planOf (s : Store) (jobId : JobId) : List (Nat × String) :=
  (s.operationsOf jobId).map (fun o => (o.ordinal, o.kind))

def definitionOf (s : Store) (jobId : JobId) : Option (String × Json.Value) :=
  (s.findJob jobId).map (fun j => (j.kind, j.input))

structure Outlined (s t : Store) : Prop where
  operations : t.operations.map (·.outline) = s.operations.map (·.outline)
  jobs : t.jobs.map (·.outline) = s.jobs.map (·.outline)

structure Steady (s t : Store) (jobId : JobId) : Prop where
  plan : t.planOf jobId = s.planOf jobId
  definition : t.definitionOf jobId = s.definitionOf jobId

variable {now : Timestamp} {s t u : Store} {jobId id : JobId} {fences : List AttemptFence}

theorem planOf_outline (s : Store) (jobId : JobId) :
    s.planOf jobId = ((s.operations.map (·.outline)).filter (fun row => row.1 = jobId)).map
      Prod.snd := by
  rw [filter_map,map_map]
  rfl

theorem definitionOf_outline (s : Store) (jobId : JobId) :
    s.definitionOf jobId = ((s.jobs.map (·.outline)).find? (fun row => row.1 = jobId)).map
      Prod.snd := by
  rw [find?_map,Option.map_map]
  rfl

theorem Outlined.steady (h : Outlined s t) (jobId : JobId) : Steady s t jobId := by
  refine ⟨?_,?_⟩
  · rw [planOf_outline,planOf_outline,h.operations]
  · rw [definitionOf_outline,definitionOf_outline,h.jobs]

theorem outlined_refl (s : Store) : Outlined s s := ⟨rfl,rfl⟩

theorem settle_outlined (fence : AttemptFence) (context : AttemptContextRow)
    (settlement : AttemptSettlement) (s : Store) :
    Outlined s (s.settle fence context settlement) := by
  cases settlement with
  | succeeded =>
    simp only [settle,settleSuccess]
    split
    · exact ⟨map_updateWhere (fun _ _ _ => rfl),rfl⟩
    · exact ⟨map_updateWhere (fun _ _ _ => rfl),map_updateWhere (fun _ _ _ => rfl)⟩
  | failed failure =>
    simp only [settle,settleFailure]
    split
    · exact ⟨map_updateWhere (fun _ _ _ => rfl),rfl⟩
    · exact ⟨map_updateWhere (fun _ _ _ => rfl),map_updateWhere (fun _ _ _ => rfl)⟩

theorem Transition.outlined (h : Transition now s none fences t) :
    Outlined s t ∨ ∃ definition jobId newId, s.createJob now definition jobId newId = .ok t := by
  cases h with
  | idle => exact .inl (outlined_refl s)
  | environment _ change =>
    obtain ⟨jobs,operations,-⟩ := change.tables
    exact .inl ⟨by rw [operations],by rw [jobs]⟩
  | leased fence row expiry found => exact .inl ⟨rfl,rfl⟩
  | created definition jobId newId _ result => exact .inr ⟨definition,jobId,newId,result⟩
  | cancelled jobId _ result =>
    obtain ⟨_,_,⟨_,rfl⟩ | ⟨_,_,rfl⟩ | ⟨_,_,rfl⟩⟩ := cancelJob_ok result
    · exact .inl (outlined_refl _)
    · exact .inl ⟨rfl,map_updateWhere (fun _ _ _ => rfl)⟩
    · exact .inl ⟨map_updateWhere (fun _ _ _ => rfl),map_updateWhere (fun _ _ _ => rfl)⟩
  | acknowledged fence _ result =>
    obtain ⟨_,_,_,_,rfl⟩ := acknowledgeJobCancellation_ok result
    exact .inl ⟨map_updateWhere (fun _ _ _ => rfl),map_updateWhere (fun _ _ _ => rfl)⟩
  | settled fence context settlement _ _ => exact .inl (settle_outlined fence context settlement s)
  | claimed request attemptId job operation selection row _ recoverable _ claim =>
    cases claim with
    | started | reclaimed =>
      exact .inl ⟨map_updateWhere (fun _ _ _ => rfl),map_updateWhere (fun _ _ _ => rfl)⟩

variable {newId : Nat → OperationId} {job : JobRow} {feedback : String}

theorem operationRows_plan (operations : List OperationDefinition) (ordinal : Nat) :
    (operationRows now jobId newId operations ordinal).map (fun o => (o.ordinal, o.kind)) =
      (operations.zipIdx ordinal).map (fun entry => (entry.2, entry.1.kind)) := by
  induction operations generalizing ordinal with
  | nil => rfl
  | cons operation rest ih =>
    rw [operationRows,map_cons,zipIdx_cons,map_cons,ih]

theorem planOf_insert {operations : List OperationDefinition} {ordinal : Nat}
    (rows : t.operations = s.operations ++ operationRows now id newId operations ordinal) :
    t.planOf jobId = s.planOf jobId ++
      if id = jobId then (operations.zipIdx ordinal).map (fun entry => (entry.2, entry.1.kind))
      else [] := by
  rw [planOf,operationsOf,rows,filter_append,map_append,operationRows_filter]
  congr 1
  split
  · exact operationRows_plan operations ordinal
  · rfl

theorem createJob_steady {definition : JobDefinition}
    (h : s.createJob now definition id newId = .ok t) (found : s.findJob jobId = some job) :
    Steady s t jobId := by
  obtain ⟨-,-,fresh,-,result⟩ := createJob_ok h
  have other : id ≠ jobId := by
    obtain ⟨mem,rfl⟩ := findJob_some found
    exact (fresh job mem).symm
  have rows : t.operations =
      s.operations ++ operationRows now id newId definition.operations 0 := by
    rw [result]
  have kept : t.findJob jobId = some job := by
    rw [findJob,result,find?_append,← findJob,found]
    rfl
  refine ⟨?_,?_⟩
  · rw [planOf_insert rows,if_neg other,append_nil]
  · rw [definitionOf,definitionOf,kept,found]

structure Continued (now : Timestamp) (s t : Store) (jobId : JobId) (feedback : String)
    (newId : Nat → OperationId) (job : JobRow) (round : Nat) (task : String) : Prop where
  found : s.findJob jobId = some job
  factory : job.kind = "factory.task"
  nonblank : Text.trim feedback ≠ ""
  counted : continuationRound (s.nextOrdinal jobId) = .ok round
  text : job.input.text "task" = some task
  jobs : t.jobs = updateWhere (fun j => j.jobId = jobId)
    ({ · with
      input := job.input.set "task" (.string (continuedTask task round (Text.trim feedback)))
      status := .queued }) s.jobs
  operations : t.operations = s.operations ++ operationRows now jobId newId
    (continuationOperations (Text.trim feedback) round) (s.nextOrdinal jobId)

theorem continueJob_continued (h : s.continueJob now id feedback newId = .ok t) :
    ∃ job round task, Continued now s t id feedback newId job round task := by
  simp only [continueJob,bind_ok,ensure_ok,okOr_ok] at h
  obtain ⟨_,nonempty,job,found,_,kind,_,_,_,_,s1,reactivated,_,_,round,counted,task,
    text,inserted⟩ := h
  have same : s1 = { s with environments := s1.environments } := by
    rcases reactivateInTransaction_ok reactivated with ⟨_,rfl⟩ | ⟨_,rfl⟩
    · rfl
    · rfl
  rw [same] at counted inserted
  obtain ⟨rfl,-⟩ := insertOperations_ok inserted
  exact ⟨job,round,task,found,kind,nonempty,counted,text,rfl,rfl⟩

theorem Continued.findJob {round : Nat} {task : String}
    (h : Continued now s t id feedback newId job round task) (jobId : JobId) :
    t.findJob jobId = (s.findJob jobId).map (fun j => if j.jobId = id then
      { j with
        input := job.input.set "task" (.string (continuedTask task round (Text.trim feedback)))
        status := .queued } else j) := by
  rw [Store.findJob,h.jobs,Store.findJob]
  simp only [updateWhere,decide_eq_true_eq]
  refine find_map_key JobRow.jobId ?_
  intro j
  split
  · rfl
  · rfl

theorem Continued.steady {round : Nat} {task : String}
    (h : Continued now s t id feedback newId job round task) (other : id ≠ jobId) :
    Steady s t jobId := by
  refine ⟨?_,?_⟩
  · rw [planOf_insert h.operations,if_neg other,append_nil]
  · rw [definitionOf,definitionOf,h.findJob]
    cases found : s.findJob jobId with
    | none => rfl
    | some j =>
      obtain ⟨-,named⟩ := findJob_some found
      rw [Option.map_some,if_neg (by rw [named]; exact other.symm)]

end Store

end Coordinator
