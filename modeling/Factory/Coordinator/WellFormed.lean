import Factory.Coordinator.Transition

namespace Coordinator

open Result Table List

structure Shape where
  jobs : List JobId
  operations : List (OperationId × JobId × Nat)
  attempts : List (AttemptId × OperationId × Nat)

def Store.shape (s : Store) : Shape :=
  ⟨s.jobs.map (·.jobId), s.operations.map (·.key), s.attempts.map (·.key)⟩

namespace Shape

def ordinalsOf (jobId : JobId) (operations : List (OperationId × JobId × Nat)) : List Nat :=
  (operations.filter (fun o => o.2.1 = jobId)).map (·.2.2)

def numbersOf (operationId : OperationId) (attempts : List (AttemptId × OperationId × Nat)) :
    List Nat :=
  (attempts.filter (fun a => a.2.1 = operationId)).map (·.2.2)

structure WellFormed (shape : Shape) : Prop where
  jobs_unique : shape.jobs.Nodup
  operations_unique : (shape.operations.map (·.1)).Nodup
  attempts_unique : (shape.attempts.map (·.1)).Nodup
  operations_owned : ∀ o ∈ shape.operations, o.2.1 ∈ shape.jobs
  attempts_owned : ∀ a ∈ shape.attempts, a.2.1 ∈ shape.operations.map (·.1)
  ordinals : ∀ jobId, ∃ n, ordinalsOf jobId shape.operations = range n
  numbers : ∀ operationId, ∃ n, numbersOf operationId shape.attempts = range' 1 n

theorem empty_wellFormed : WellFormed ⟨[], [], []⟩ where
  jobs_unique := nodup_nil
  operations_unique := nodup_nil
  attempts_unique := nodup_nil
  operations_owned := by simp
  attempts_owned := by simp
  ordinals := fun _ => ⟨0,rfl⟩
  numbers := fun _ => ⟨0,rfl⟩

end Shape

def Store.WellFormed (s : Store) : Prop := s.shape.WellFormed

namespace Store

variable {s t : Store}

theorem ordinalsOf_shape (s : Store) (jobId : JobId) :
    Shape.ordinalsOf jobId s.shape.operations = (s.operationsOf jobId).map (·.ordinal) := by
  simp only [Shape.ordinalsOf,shape,operationsOf,filter_map,map_map]
  rfl

theorem numbersOf_shape (s : Store) (operationId : OperationId) :
    Shape.numbersOf operationId s.shape.attempts =
      (s.attemptsOf operationId).map (·.attemptNumber) := by
  simp only [Shape.numbersOf,shape,attemptsOf,filter_map,map_map]
  rfl

namespace WellFormed

section Reading

variable (h : s.WellFormed)

include h

theorem jobs_unique : (s.jobs.map (·.jobId)).Nodup :=
  Shape.WellFormed.jobs_unique h

theorem operations_unique : (s.operations.map (·.operationId)).Nodup := by
  have hunique := Shape.WellFormed.operations_unique h
  simp only [shape,map_map] at hunique
  exact hunique

theorem attempts_unique : (s.attempts.map (·.attemptId)).Nodup := by
  have hunique := Shape.WellFormed.attempts_unique h
  simp only [shape,map_map] at hunique
  exact hunique

theorem job_eq {j k : JobRow} (hj : j ∈ s.jobs) (hk : k ∈ s.jobs) (same : j.jobId = k.jobId) :
    j = k :=
  inj_on_of_nodup_map h.jobs_unique hj hk same

theorem operation_eq {o p : OperationRow} (ho : o ∈ s.operations) (hp : p ∈ s.operations)
    (same : o.operationId = p.operationId) : o = p :=
  inj_on_of_nodup_map h.operations_unique ho hp same

theorem attempt_eq {a b : AttemptRow} (ha : a ∈ s.attempts) (hb : b ∈ s.attempts)
    (same : a.attemptId = b.attemptId) : a = b :=
  inj_on_of_nodup_map h.attempts_unique ha hb same

theorem operation_job {o : OperationRow} (ho : o ∈ s.operations) :
    ∃ j ∈ s.jobs, j.jobId = o.jobId :=
  mem_map.mp (Shape.WellFormed.operations_owned h o.key (mem_map_of_mem ho))

theorem attempt_operation {a : AttemptRow} (ha : a ∈ s.attempts) :
    ∃ o ∈ s.operations, o.operationId = a.operationId := by
  have howned := Shape.WellFormed.attempts_owned h a.key (mem_map_of_mem ha)
  simp only [shape,map_map] at howned
  exact mem_map.mp howned

theorem ordinals (jobId : JobId) :
    (s.operationsOf jobId).map (·.ordinal) = range (s.operationsOf jobId).length := by
  obtain ⟨n,hn⟩ := Shape.WellFormed.ordinals h jobId
  rw [ordinalsOf_shape] at hn
  have hlength := congrArg length hn
  rw [length_map,length_range] at hlength
  rw [hn,hlength]

theorem numbers (operationId : OperationId) :
    (s.attemptsOf operationId).map (·.attemptNumber) =
      range' 1 (s.attemptsOf operationId).length := by
  obtain ⟨n,hn⟩ := Shape.WellFormed.numbers h operationId
  rw [numbersOf_shape] at hn
  have hlength := congrArg length hn
  rw [length_map,length_range'] at hlength
  rw [hn,hlength]

theorem number_split {operationId : OperationId} {pre post : List AttemptRow} {a : AttemptRow}
    (hsplit : s.attemptsOf operationId = pre ++ a :: post) :
    a.attemptNumber = pre.length + 1 := by
  have hnumbers := h.numbers operationId
  rw [hsplit] at hnumbers
  have hget := congrArg (fun xs => xs[pre.length]?) hnumbers
  simp only [map_append,map_cons,length_append,length_cons] at hget
  rw [getElem?_append_right (by simp)] at hget
  simp only [length_map,Nat.sub_self,getElem?_cons_zero] at hget
  rw [getElem?_range' (by omega)] at hget
  have := Option.some.inj hget
  omega

theorem ordinal_split {jobId : JobId} {before after : List OperationRow} {o : OperationRow}
    (hsplit : s.operationsOf jobId = before ++ o :: after) :
    o.ordinal = before.length ∧ ∀ x ∈ before, x.ordinal < o.ordinal := by
  have hordinals := h.ordinals jobId
  rw [hsplit] at hordinals
  have hget := congrArg (fun xs => xs[before.length]?) hordinals
  simp only [map_append,map_cons,length_append,length_cons] at hget
  rw [getElem?_append_right (by simp)] at hget
  simp only [length_map,Nat.sub_self,getElem?_cons_zero] at hget
  rw [getElem?_range (by omega)] at hget
  have ho := Option.some.inj hget
  refine ⟨ho,?_⟩
  intro x hx
  have htake := congrArg (take before.length) hordinals
  rw [map_append,take_left' (length_map _),take_range] at htake
  have hmem : x.ordinal ∈ before.map (·.ordinal) := mem_map_of_mem hx
  rw [htake] at hmem
  have hlt := mem_range.mp hmem
  omega

theorem of_shape (same : t.shape = s.shape) : t.WellFormed := by
  unfold WellFormed
  rw [same]
  exact h

end Reading

end WellFormed

theorem previousAttempt_split (h : s.WellFormed) {operationId : OperationId} {a : AttemptRow}
    (hprevious : s.previousAttempt operationId = some a) :
    ∃ pre, s.attemptsOf operationId = pre ++ [a] := by
  obtain ⟨pre,post,hsplit⟩ := append_of_mem (argmax_mem hprevious)
  cases post with
  | nil => exact ⟨pre,hsplit⟩
  | cons b rest =>
    have ha := h.number_split hsplit
    have hnext : s.attemptsOf operationId = (pre ++ [a]) ++ b :: rest := by simpa using hsplit
    have hb := h.number_split hnext
    have hmem : b ∈ s.attemptsOf operationId := by
      rw [hsplit]
      simp
    have hle := le_of_mem_argmax hmem hprevious
    simp only [length_append,length_singleton] at hb
    omega

theorem attemptsMade_eq (h : s.WellFormed) (operationId : OperationId) :
    s.attemptsMade operationId = (s.attemptsOf operationId).length := by
  unfold attemptsMade
  cases hprevious : s.previousAttempt operationId with
  | none =>
    have hnil : s.attemptsOf operationId = [] := argmax_eq_none.mp hprevious
    rw [hnil]
    rfl
  | some a =>
    obtain ⟨pre,hsplit⟩ := previousAttempt_split h hprevious
    have hnumber := h.number_split hsplit
    rw [hsplit,length_append]
    exact hnumber

theorem shape_eq (hjobs : t.jobs.map (·.jobId) = s.jobs.map (·.jobId))
    (hoperations : t.operations.map (·.key) = s.operations.map (·.key))
    (hattempts : t.attempts.map (·.key) = s.attempts.map (·.key)) : t.shape = s.shape := by
  simp only [shape,hjobs,hoperations,hattempts]

variable {now : Timestamp} {jobId : JobId} {newId : Nat → OperationId}

variable {operations : List OperationDefinition} {ordinal : Nat}

theorem operationRows_owned :
    ∀ o ∈ operationRows now jobId newId operations ordinal,
      o.jobId = jobId ∧ o.status = .ready := by
  induction operations generalizing ordinal with
  | nil => simp [operationRows]
  | cons operation rest ih =>
    intro o ho
    rcases mem_cons.mp ho with rfl | ho
    · exact ⟨rfl,rfl⟩
    · exact ih o ho

theorem operationRows_budget (positive : ∀ d ∈ operations, d.maxAttempts ≠ 0) :
    ∀ o ∈ operationRows now jobId newId operations ordinal, 0 < o.maxAttempts := by
  induction operations generalizing ordinal with
  | nil => simp [operationRows]
  | cons operation rest ih =>
    intro o ho
    rcases mem_cons.mp ho with rfl | ho
    · exact Nat.pos_of_ne_zero (positive operation mem_cons_self)
    · exact ih (fun d hd => positive d (mem_cons_of_mem _ hd)) o ho

theorem operationRows_ordinals (operations : List OperationDefinition) (ordinal : Nat) :
    (operationRows now jobId newId operations ordinal).map (·.ordinal) =
      range' ordinal operations.length := by
  induction operations generalizing ordinal with
  | nil => rfl
  | cons operation rest ih =>
    simp only [operationRows,map_cons,ih,length_cons,range'_succ]

theorem operationRows_filter (other : JobId) :
    (operationRows now jobId newId operations ordinal).filter (fun o => o.jobId = other) =
      if jobId = other then operationRows now jobId newId operations ordinal else [] := by
  split
  next hsame =>
    refine filter_eq_self.mpr ?_
    intro o ho
    simp [(operationRows_owned o ho).1,hsame]
  next hother =>
    refine filter_eq_nil_iff.mpr ?_
    intro o ho
    simp [(operationRows_owned o ho).1,hother]

theorem operationsOf_fresh (h : s.WellFormed) (fresh : ∀ j ∈ s.jobs, j.jobId ≠ jobId) :
    s.operationsOf jobId = [] := by
  refine filter_eq_nil_iff.mpr ?_
  intro o ho hsame
  obtain ⟨j,hj,hjob⟩ := h.operation_job ho
  exact fresh j hj (hjob.trans (of_decide_eq_true hsame))

theorem foldl_max_range (n : Nat) : ((range n).map (· + 1)).foldl max 0 = n := by
  induction n with
  | zero => rfl
  | succ n ih =>
    rw [range_succ,map_append,foldl_append,ih]
    simp

theorem nextOrdinal_eq (h : s.WellFormed) (jobId : JobId) :
    s.nextOrdinal jobId = (s.operationsOf jobId).length := by
  have hmap : (s.operationsOf jobId).map (·.ordinal + 1) =
      ((s.operationsOf jobId).map (·.ordinal)).map (· + 1) := by
    rw [map_map]
    rfl
  rw [nextOrdinal,hmap,h.ordinals,foldl_max_range]

theorem wellFormed_insertOperations (h : s.WellFormed)
    (jobs : t.jobs.map (·.jobId) = s.jobs.map (·.jobId) ∨
      (∀ j ∈ s.jobs, j.jobId ≠ jobId) ∧
        t.jobs.map (·.jobId) = s.jobs.map (·.jobId) ++ [jobId])
    (present : jobId ∈ t.jobs.map (·.jobId))
    (rows : t.operations = s.operations ++
      operationRows now jobId newId operations (s.operationsOf jobId).length)
    (unique : (t.operations.map (·.operationId)).Nodup) (attempts : t.attempts = s.attempts) :
    t.WellFormed := by
  have hsub : ∀ id ∈ s.jobs.map (·.jobId), id ∈ t.jobs.map (·.jobId) := by
    intro id hid
    rcases jobs with hsame | ⟨_,hnew⟩
    · rw [hsame]; exact hid
    · rw [hnew]; exact mem_append_left _ hid
  constructor
  · rcases jobs with hsame | ⟨fresh,hnew⟩
    · simpa only [shape,hsame] using h.jobs_unique
    · simp only [shape,hnew]
      refine nodup_append.mpr ⟨h.jobs_unique,nodup_singleton _,?_⟩
      intro x hx y hy
      obtain ⟨j,hj,rfl⟩ := mem_map.mp hx
      rw [mem_singleton.mp hy]
      exact fresh j hj
  · simp only [shape,map_map]
    exact unique
  · simp only [shape,attempts]
    exact Shape.WellFormed.attempts_unique h
  · intro o ho
    obtain ⟨row,hrow,rfl⟩ := mem_map.mp ho
    rw [rows] at hrow
    rcases mem_append.mp hrow with hrow | hrow
    · exact hsub _ (Shape.WellFormed.operations_owned h _ (mem_map_of_mem hrow))
    · rw [OperationRow.key,(operationRows_owned row hrow).1]
      exact present
  · intro a ha
    simp only [shape,attempts] at ha
    have howned := Shape.WellFormed.attempts_owned h a ha
    simp only [shape,map_map,rows,map_append] at howned ⊢
    exact mem_append_left _ howned
  · intro other
    rw [ordinalsOf_shape]
    simp only [operationsOf,rows,filter_append,operationRows_filter,map_append]
    have hold := h.ordinals other
    simp only [operationsOf] at hold
    rw [hold]
    split
    next hsame =>
      subst hsame
      refine ⟨(s.operationsOf jobId).length + operations.length,?_⟩
      rw [operationRows_ordinals,range_eq_range',range_eq_range']
      have happend := @List.range'_append_1 0 (s.operationsOf jobId).length operations.length
      rw [Nat.zero_add] at happend
      exact happend
    next => exact ⟨_,append_nil _⟩
  · intro operationId
    simp only [shape,attempts]
    exact Shape.WellFormed.numbers h operationId

theorem wellFormed_startAttempt (h : s.WellFormed) {row : AttemptRow}
    (jobs : t.jobs.map (·.jobId) = s.jobs.map (·.jobId))
    (operations : t.operations.map (·.key) = s.operations.map (·.key))
    (attempts : t.attempts = s.attempts ++ [row])
    (fresh : ∀ a ∈ s.attempts, a.attemptId ≠ row.attemptId)
    (owned : ∃ o ∈ s.operations, o.operationId = row.operationId)
    (number : row.attemptNumber = (s.attemptsOf row.operationId).length + 1) :
    t.WellFormed := by
  constructor
  · simp only [shape,jobs]
    exact h.jobs_unique
  · simp only [shape,operations]
    exact Shape.WellFormed.operations_unique h
  · simp only [shape,attempts,map_map]
    exact nodup_concat h.attempts_unique fresh
  · simp only [shape,operations,jobs]
    exact Shape.WellFormed.operations_owned h
  · intro a ha
    simp only [shape,attempts,operations,map_append] at ha ⊢
    rcases mem_append.mp ha with ha | ha
    · exact Shape.WellFormed.attempts_owned h a ha
    · obtain rfl := mem_singleton.mp ha
      obtain ⟨o,ho,hid⟩ := owned
      rw [map_map]
      exact mem_map.mpr ⟨o,ho,hid⟩
  · simp only [shape,operations]
    exact Shape.WellFormed.ordinals h
  · intro operationId
    rw [numbersOf_shape]
    simp only [attemptsOf,attempts,filter_append,map_append]
    have hold := h.numbers operationId
    simp only [attemptsOf] at hold
    rw [hold]
    by_cases hsame : row.operationId = operationId
    · subst hsame
      refine ⟨(s.attemptsOf row.operationId).length + 1,?_⟩
      simp only [filter_cons,filter_nil,decide_true,if_true,map_cons,
        map_nil,number]
      rw [range'_1_concat,Nat.add_comm 1]
      rfl
    · exact ⟨(s.attemptsOf operationId).length,by simp [hsame,attemptsOf]⟩

theorem startJob_jobIds (jobId : JobId) (s : Store) :
    (s.startJob jobId).jobs.map (·.jobId) = s.jobs.map (·.jobId) :=
  map_updateWhere (fun _ _ _ => rfl)

theorem setOperationStatus_keys (operationId : OperationId) (status : OperationState) (s : Store) :
    (s.setOperationStatus operationId status).operations.map (·.key) =
      s.operations.map (·.key) :=
  map_updateWhere (fun _ _ _ => rfl)

theorem settle_shape (fence : AttemptFence) (context : AttemptContextRow)
    (settlement : AttemptSettlement) (s : Store) :
    (s.settle fence context settlement).shape = s.shape := by
  cases settlement with
  | succeeded =>
    simp only [settle,settleSuccess]
    split
    · exact shape_eq rfl (map_updateWhere (fun _ _ _ => rfl)) (map_updateWhere (fun _ _ _ => rfl))
    · exact shape_eq (map_updateWhere (fun _ _ _ => rfl)) (map_updateWhere (fun _ _ _ => rfl))
        (map_updateWhere (fun _ _ _ => rfl))
  | failed failure =>
    simp only [settle,settleFailure]
    split
    · exact shape_eq rfl (map_updateWhere (fun _ _ _ => rfl)) (map_updateWhere (fun _ _ _ => rfl))
    · exact shape_eq (map_updateWhere (fun _ _ _ => rfl)) (map_updateWhere (fun _ _ _ => rfl))
        (map_updateWhere (fun _ _ _ => rfl))

theorem Transition.wellFormed {continued : Option JobId} {fences : List AttemptFence}
    (h : Transition now s continued fences t)
    (wf : s.WellFormed) : t.WellFormed := by
  cases h with
  | idle => exact wf
  | environment _ change =>
    obtain ⟨hjobs,hoperations,hattempts⟩ := change.tables
    exact wf.of_shape (shape_eq (by rw [hjobs]) (by rw [hoperations]) (by rw [hattempts]))
  | leased fence row expiry found =>
    exact wf.of_shape (shape_eq rfl rfl (map_updateWhere (fun _ _ _ => rfl)))
  | created definition jobId newId _ result =>
    obtain ⟨_,_,hfresh,hunique,rfl⟩ := createJob_ok result
    have hrows : s.operations ++ operationRows now jobId newId definition.operations 0 =
        s.operations ++ operationRows now jobId newId definition.operations
          (s.operationsOf jobId).length := by
      rw [operationsOf_fresh wf hfresh,length_nil]
    refine wellFormed_insertOperations wf (Or.inr ⟨hfresh,map_append ..⟩) ?_ hrows
      (hunique wf.operations_unique) rfl
    simp only [map_append]
    exact mem_append_right _ (mem_singleton_self jobId)
  | continued jobId feedback newId _ result =>
    obtain ⟨job,round,input,environments,hjob,_,_,_,_,_,hunique,rfl⟩ :=
      continueJob_ok result
    have hids : (updateWhere (fun j => j.jobId = jobId)
        (fun j : JobRow => { j with input := input, status := .queued }) s.jobs).map (·.jobId) =
        s.jobs.map (·.jobId) := map_updateWhere (fun _ _ _ => rfl)
    have hrows : s.operations ++ operationRows now jobId newId
        (continuationOperations (Text.trim feedback) round) (s.nextOrdinal jobId) =
        s.operations ++ operationRows now jobId newId
          (continuationOperations (Text.trim feedback) round)
          (s.operationsOf jobId).length := by
      rw [nextOrdinal_eq wf]
    refine wellFormed_insertOperations wf (Or.inl hids) ?_ hrows
      (hunique wf.operations_unique) rfl
    simp only [hids]
    obtain ⟨hmem,rfl⟩ := findJob_some hjob
    exact mem_map_of_mem hmem
  | cancelled jobId _ result =>
    obtain ⟨_,_,⟨_,rfl⟩ | ⟨_,_,rfl⟩ | ⟨_,_,rfl⟩⟩ := cancelJob_ok result
    · exact wf
    · exact wf.of_shape (shape_eq (map_updateWhere (fun _ _ _ => rfl)) rfl rfl)
    · exact wf.of_shape (shape_eq (map_updateWhere (fun _ _ _ => rfl))
        (map_updateWhere (fun _ _ _ => rfl)) rfl)
  | acknowledged fence _ result =>
    obtain ⟨_,_,_,_,rfl⟩ := acknowledgeJobCancellation_ok result
    exact wf.of_shape (shape_eq (map_updateWhere (fun _ _ _ => rfl))
      (map_updateWhere (fun _ _ _ => rfl)) (map_updateWhere (fun _ _ _ => rfl)))
  | settled fence context settlement _ _ =>
    exact wf.of_shape (settle_shape fence context settlement s)
  | claimed request attemptId job operation selection row _ recoverable _ claim =>
    cases claim with
    | started _ _ fresh row_eq =>
      refine wellFormed_startAttempt wf (startJob_jobIds _ _)
        (setOperationStatus_keys _ _ (s.startJob job.jobId)) rfl ?_ ?_ ?_
      · rw [row_eq]
        exact fresh
      · rw [row_eq]
        exact ⟨operation,recoverable.operation_mem,rfl⟩
      · rw [row_eq]
        exact congrArg (· + 1) (attemptsMade_eq wf operation.operationId)
    | reclaimed latest previous _ _ _ =>
      exact wf.of_shape (shape_eq (startJob_jobIds _ _)
        (setOperationStatus_keys _ _ (s.startJob job.jobId))
        (map_updateWhere (fun _ _ _ => rfl)))

end Store

end Coordinator
