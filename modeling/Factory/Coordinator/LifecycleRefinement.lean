import Factory.Coordinator.Lifecycle
import Factory.Coordinator.WellFormed

namespace Coordinator

open Result Table List AttemptRow OperationLife

namespace Store

def operationLife (s : Store) (o : OperationRow) : OperationLife :=
  ⟨o.status, o.maxAttempts, (s.attemptsOf o.operationId).map (·.status)⟩

def lives (s : Store) (jobId : JobId) : List OperationLife :=
  (s.operationsOf jobId).map s.operationLife

def life (s : Store) (job : JobRow) : JobLife := ⟨job.status, s.lives job.jobId⟩

variable {s t : Store} {now : Timestamp} {jobId : JobId}

theorem operationsOf_unique (h : s.WellFormed) (jobId : JobId) :
    ((s.operationsOf jobId).map (·.operationId)).Nodup :=
  h.operations_unique.sublist (filter_sublist.map _)

theorem mem_operationsOf {o : OperationRow} :
    o ∈ s.operationsOf jobId ↔ o ∈ s.operations ∧ o.jobId = jobId := by
  simp [operationsOf]

theorem mem_attemptsOf {operationId : OperationId} {a : AttemptRow} :
    a ∈ s.attemptsOf operationId ↔ a ∈ s.attempts ∧ a.operationId = operationId := by
  simp [attemptsOf]

theorem lives_congr (hoperations : t.operationsOf jobId = s.operationsOf jobId)
    (hattempts : ∀ o ∈ s.operationsOf jobId,
      (t.attemptsOf o.operationId).map (·.status) = (s.attemptsOf o.operationId).map (·.status)) :
    t.lives jobId = s.lives jobId := by
  unfold lives
  rw [hoperations]
  refine map_congr_left ?_
  intro o ho
  simp only [operationLife,hattempts o ho]

structure AttemptUpdate (s t : Store) (a : AttemptRow) (p : AttemptRow → Bool)
    (f : AttemptRow → AttemptRow) : Prop where
  rows : t.attempts = updateWhere p f s.attempts
  mem : a ∈ s.attempts
  hit : p a = true
  only : ∀ b ∈ s.attempts, p b = true → b.attemptId = a.attemptId
  operation : ∀ b, (f b).operationId = b.operationId

namespace AttemptUpdate

variable {a : AttemptRow} {p : AttemptRow → Bool} {f : AttemptRow → AttemptRow}
  (h : AttemptUpdate s t a p f)

include h

theorem attemptsOf_eq (operationId : OperationId) :
    t.attemptsOf operationId = updateWhere p f (s.attemptsOf operationId) := by
  unfold attemptsOf
  rw [h.rows]
  refine filter_updateWhere ?_
  intro b
  rw [h.operation b]

theorem other (wf : s.WellFormed) {operationId : OperationId}
    (hne : operationId ≠ a.operationId) :
    t.attemptsOf operationId = s.attemptsOf operationId := by
  rw [h.attemptsOf_eq]
  refine updateWhere_none ?_
  intro b hb
  obtain ⟨hmem,hoperation⟩ := mem_attemptsOf.mp hb
  refine Bool.eq_false_iff.mpr ?_
  intro hp
  obtain rfl := wf.attempt_eq hmem h.mem (h.only b hmem hp)
  exact hne hoperation.symm

theorem own (wf : s.WellFormed) :
    ∃ pre post, s.attemptsOf a.operationId = pre ++ a :: post ∧
      t.attemptsOf a.operationId = pre ++ f a :: post := by
  have hunique : ((s.attemptsOf a.operationId).map (·.attemptId)).Nodup :=
    wf.attempts_unique.sublist (filter_sublist.map _)
  obtain ⟨pre,post,hsplit,hpre,hpost⟩ :=
    split_key hunique (mem_attemptsOf.mpr ⟨h.mem,rfl⟩)
  have hmiss : ∀ b ∈ s.attemptsOf a.operationId, b.attemptId ≠ a.attemptId → p b = false := by
    intro b hb hne
    exact Bool.eq_false_iff.mpr (fun hp => hne (h.only b (mem_attemptsOf.mp hb).1 hp))
  refine ⟨pre,post,hsplit,?_⟩
  rw [h.attemptsOf_eq,hsplit]
  rw [hsplit] at hmiss
  refine updateWhere_split h.hit ?_ ?_
  · intro b hb
    exact hmiss b (mem_append_left _ hb) (hpre b hb)
  · intro b hb
    exact hmiss b (mem_append_right _ (mem_cons_of_mem _ hb)) (hpost b hb)

end AttemptUpdate

structure OperationUpdate (s t : Store) (o : OperationRow) (f : OperationRow → OperationRow) :
    Prop where
  rows : t.operations = updateWhere (fun x => x.operationId = o.operationId) f s.operations
  mem : o ∈ s.operations
  identity : ∀ x, (f x).jobId = x.jobId ∧ (f x).operationId = x.operationId ∧
    (f x).maxAttempts = x.maxAttempts

namespace OperationUpdate

variable {o : OperationRow} {f : OperationRow → OperationRow} (h : OperationUpdate s t o f)

include h

theorem operationsOf_eq (jobId : JobId) :
    t.operationsOf jobId =
      updateWhere (fun x => x.operationId = o.operationId) f (s.operationsOf jobId) := by
  unfold operationsOf
  rw [h.rows]
  refine filter_updateWhere ?_
  intro x
  rw [(h.identity x).1]

variable (wf : s.WellFormed)

include wf

theorem misses (hne : jobId ≠ o.jobId) :
    ∀ x ∈ s.operationsOf jobId, x.operationId ≠ o.operationId := by
  intro x hx hsame
  obtain ⟨hmem,hjob⟩ := mem_operationsOf.mp hx
  obtain rfl := wf.operation_eq hmem h.mem hsame
  exact hne hjob.symm

theorem other (hne : jobId ≠ o.jobId) :
    t.operationsOf jobId = s.operationsOf jobId := by
  rw [h.operationsOf_eq]
  refine updateWhere_none ?_
  intro x hx
  simpa using h.misses wf hne x hx

theorem own :
    ∃ before after, s.operationsOf o.jobId = before ++ o :: after ∧
      t.operationsOf o.jobId = before ++ f o :: after ∧
      ∀ x ∈ before ++ after, x.operationId ≠ o.operationId := by
  obtain ⟨before,after,hsplit,hbefore,hafter⟩ :=
    split_key (operationsOf_unique wf o.jobId) (mem_operationsOf.mpr ⟨h.mem,rfl⟩)
  refine ⟨before,after,hsplit,?_,?_⟩
  · rw [h.operationsOf_eq,hsplit]
    refine updateWhere_split (by simp) ?_ ?_
    · intro x hx
      simpa using hbefore x hx
    · intro x hx
      simpa using hafter x hx
  · intro x hx
    rcases mem_append.mp hx with hx | hx
    · exact hbefore x hx
    · exact hafter x hx

variable (hattempts : ∀ operationId ≠ o.operationId,
  t.attemptsOf operationId = s.attemptsOf operationId)

include hattempts

theorem lives_own :
    ∃ before after, s.operationsOf o.jobId = before ++ o :: after ∧
      s.lives o.jobId = before.map s.operationLife ++
        s.operationLife o :: after.map s.operationLife ∧
      t.lives o.jobId = before.map s.operationLife ++
        t.operationLife (f o) :: after.map s.operationLife := by
  obtain ⟨before,after,hs,ht,hothers⟩ := h.own wf
  have hsame : ∀ xs : List OperationRow, (∀ x ∈ xs, x ∈ before ++ after) →
      xs.map t.operationLife = xs.map s.operationLife := by
    intro xs hxs
    refine map_congr_left ?_
    intro x hx
    simp only [operationLife,hattempts _ (hothers x (hxs x hx))]
  refine ⟨before,after,hs,?_,?_⟩
  · simp only [lives,hs,map_append,map_cons]
  · simp only [lives,ht,map_append,map_cons,
      hsame before (fun x hx => mem_append_left _ hx),
      hsame after (fun x hx => mem_append_right _ hx)]

theorem lives_other (hne : jobId ≠ o.jobId) :
    t.lives jobId = s.lives jobId := by
  refine lives_congr (h.other wf hne) ?_
  intro x hx
  rw [hattempts _ (h.misses wf hne x hx)]

end OperationUpdate

variable {g : AttemptRow → AttemptRow} {p : AttemptRow → Bool} {f : OperationRow → OperationRow}
  {job : JobRow} {fences : List AttemptFence} {continued : Option JobId}

section Updating

variable {o : OperationRow} {a : AttemptRow} (wf : s.WellFormed)
  (hoperation : OperationUpdate s t o f) (hattempt : AttemptUpdate s t a p g)
  (howner : a.operationId = o.operationId)

include wf hoperation hattempt howner

theorem lives_update :
    ∃ before after pre post,
      s.lives o.jobId = before ++ s.operationLife o :: after ∧
      (s.operationLife o).attempts = pre ++ a.status :: post ∧
      a.attemptNumber = pre.length + 1 ∧
      t.lives o.jobId = before ++
        (s.operationLife o).become (f o).status (pre ++ (g a).status :: post) :: after := by
  obtain ⟨before,after,_,hs,ht⟩ := hoperation.lives_own wf
    (fun operationId hne => hattempt.other wf (howner ▸ hne))
  obtain ⟨pre,post,hpre,hpost⟩ := hattempt.own wf
  refine ⟨before.map s.operationLife,after.map s.operationLife,pre.map (·.status),
    post.map (·.status),hs,?_,?_,?_⟩
  · simp only [operationLife,← howner,hpre,map_append,map_cons]
  · rw [wf.number_split hpre,length_map]
  · obtain ⟨_,hid,hmax⟩ := hoperation.identity o
    rw [ht]
    simp only [operationLife,become,hid,hmax,← howner,hpost,map_append,
      map_cons]

theorem lives_update_other : ∀ id ≠ o.jobId, t.lives id = s.lives id := by
  intro id hne
  exact hoperation.lives_other wf
    (fun operationId hother => hattempt.other wf (howner ▸ hother)) hne

end Updating

def Follows (s t : Store) : Prop :=
  ∀ job' ∈ t.jobs, (t.life job').Fresh ∨
    ∃ job ∈ s.jobs, job.jobId = job'.jobId ∧
      (t.life job' = s.life job ∨ JobLife.Step (s.life job) (t.life job'))

theorem follows_same (hjobs : t.jobs = s.jobs) (hlives : ∀ id, t.lives id = s.lives id) :
    Follows s t := by
  intro job hjob
  refine Or.inr ⟨job,hjobs ▸ hjob,rfl,Or.inl ?_⟩
  simp only [life,hlives]

theorem follows_update {p : JobRow → Bool} {f : JobRow → JobRow} (wf : s.WellFormed)
    (hjob : job ∈ s.jobs) (hjobs : t.jobs = updateWhere p f s.jobs)
    (hid : ∀ j, (f j).jobId = j.jobId) (hp : ∀ j ∈ s.jobs, p j = true → j.jobId = job.jobId)
    (others : ∀ id ≠ job.jobId, t.lives id = s.lives id)
    (hstep : JobLife.Step (s.life job) ⟨(if p job then f job else job).status, t.lives job.jobId⟩) :
    Follows s t := by
  intro job' hjob'
  rw [hjobs] at hjob'
  obtain ⟨j,hj,rfl⟩ := mem_updateWhere.mp hjob'
  have hkey : (if p j then f j else j).jobId = j.jobId := by
    split
    · exact hid j
    · rfl
  refine Or.inr ⟨j,hj,hkey.symm,?_⟩
  by_cases hsame : j.jobId = job.jobId
  · obtain rfl := wf.job_eq hj hjob hsame
    refine Or.inr ?_
    rw [life,life,hkey]
    exact hstep
  · have hmiss : p j = false := Bool.eq_false_iff.mpr (fun h => hsame (hp j hj h))
    refine Or.inl ?_
    simp only [life,hmiss,Bool.false_eq_true,if_false,others _ hsame]

structure LeaseRows (now : Timestamp) (fence : AttemptFence) (s : Store)
    (context : AttemptContextRow) (a : AttemptRow) (o : OperationRow) (j : JobRow) : Prop where
  attempt_mem : a ∈ s.attempts
  operation_mem : o ∈ s.operations
  job_mem : j ∈ s.jobs
  fence_eq : a.fence = fence
  running : a.status = .running
  live : now < a.leaseExpiresAt
  operation_eq : a.operationId = o.operationId
  job_eq : j.jobId = o.jobId
  context_eq : context = ⟨o.operationId, o.jobId, j.status, a.attemptNumber, o.maxAttempts⟩

variable {fence : AttemptFence} {context : AttemptContextRow} {a : AttemptRow} {o : OperationRow}
  {j : JobRow}

theorem leaseRows (h : s.attemptContext now fence = some context) :
    ∃ a o j, LeaseRows now fence s context a o j := by
  obtain ⟨a,o,j,ha,ho,hj,rfl⟩ := attemptContext_some.mp h
  obtain ⟨hfence,hrunning,hlive⟩ := holds_iff.mp (find?_some ha)
  obtain ⟨hmem,hid⟩ := findOperation_some ho
  obtain ⟨hjmem,hjid⟩ := findJob_some hj
  exact ⟨a,o,j,mem_of_find?_eq_some ha,hmem,hjmem,hfence,hrunning,hlive,hid.symm,
    hjid,by rw [hid]⟩

theorem hasRemaining_iff : t.hasRemaining jobId = true ↔
    ∃ x ∈ t.lives jobId, x.state ≠ .succeeded := by
  simp only [hasRemaining,any_eq_true,decide_eq_true_eq,lives,mem_map,
    mem_operationsOf]
  constructor
  · rintro ⟨o,ho,hjob,hstatus⟩
    exact ⟨_,⟨o,⟨ho,hjob⟩,rfl⟩,hstatus⟩
  · rintro ⟨_,⟨o,⟨ho,hjob⟩,rfl⟩,hstatus⟩
    exact ⟨o,ho,hjob,hstatus⟩

section Leased

variable (h : LeaseRows now fence s context a o j)

include h

theorem LeaseRows.attemptUpdate {f : AttemptRow → AttemptRow}
    (hrows : t.attempts = updateWhere (fun b => b.attemptId = fence.attemptId) f s.attempts)
    (hf : ∀ b, (f b).operationId = b.operationId) :
    AttemptUpdate s t a (fun b => b.attemptId = fence.attemptId) f := by
  have hid : a.attemptId = fence.attemptId := congrArg AttemptFence.attemptId h.fence_eq
  refine ⟨hrows,h.attempt_mem,by simp [hid],?_,hf⟩
  intro b _ hb
  rw [hid]
  exact of_decide_eq_true hb

theorem LeaseRows.operationUpdate {f : OperationRow → OperationRow}
    (hrows : t.operations =
      updateWhere (fun x => x.operationId = context.operationId) f s.operations)
    (hf : ∀ x, (f x).jobId = x.jobId ∧ (f x).operationId = x.operationId ∧
      (f x).maxAttempts = x.maxAttempts) : OperationUpdate s t o f := by
  refine ⟨?_,h.operation_mem,hf⟩
  rw [hrows,h.context_eq]

theorem LeaseRows.jobId_eq : context.jobId = j.jobId := by
  rw [h.context_eq,h.job_eq]

variable (wf : s.WellFormed)

include wf

theorem LeaseRows.lives (hoperation : OperationUpdate s t o f)
    (hattempt : AttemptUpdate s t a (fun b => b.attemptId = fence.attemptId) g) :
    ∃ before after pre post,
      s.life j = ⟨j.status, before ++ s.operationLife o :: after⟩ ∧
      (s.operationLife o).attempts = pre ++ .running :: post ∧
      a.attemptNumber = pre.length + 1 ∧
      t.lives j.jobId = before ++
        (s.operationLife o).become (f o).status (pre ++ (g a).status :: post) :: after ∧
      ∀ id ≠ j.jobId, t.lives id = s.lives id := by
  obtain ⟨before,after,pre,post,hs,hattempts,hnumber,ht⟩ :=
    lives_update wf hoperation hattempt h.operation_eq
  have hothers := lives_update_other wf hoperation hattempt h.operation_eq
  rw [← h.job_eq] at hs ht hothers
  rw [h.running] at hattempts
  exact ⟨before,after,pre,post,by rw [life,hs],hattempts,hnumber,ht,hothers⟩

theorem LeaseRows.follows (status : Option JobState)
    (hjobs : t.jobs = status.elim s.jobs (fun new => (s.setJobStatus context.jobId new).jobs))
    (others : ∀ id ≠ j.jobId, t.lives id = s.lives id)
    (hstep : JobLife.Step (s.life j) ⟨status.getD j.status, t.lives j.jobId⟩) :
    Follows s t := by
  cases status with
  | none =>
    exact follows_update wf h.job_mem (hjobs.trans (updateWhere_id (fun _ => false) s.jobs).symm)
      (fun _ => rfl) (fun _ _ hfalse => by cases hfalse) others hstep
  | some new =>
    refine follows_update wf h.job_mem hjobs (fun _ => rfl)
      (fun _ _ hid => (of_decide_eq_true hid).trans h.jobId_eq) others ?_
    simp only [h.jobId_eq,decide_true,if_true]
    exact hstep

variable (hopen : j.status ≠ .cancelling)

include hopen

theorem settleSuccess_follows : Follows s (s.settleSuccess fence context) := by
  let u := (s.setAttempt fence.attemptId ({ · with status := .succeeded })).setOperationStatus
    context.operationId .succeeded
  have hattempt := @LeaseRows.attemptUpdate s u now fence context a o j h _ rfl (fun _ => rfl)
  have hoperation := @LeaseRows.operationUpdate s u now fence context a o j h _ rfl
    (fun _ => ⟨rfl,rfl,rfl⟩)
  obtain ⟨before,after,pre,post,hlife,hattempts,_,hlives,hothers⟩ :=
    h.lives wf hoperation hattempt
  have hremaining : u.hasRemaining context.jobId = true ↔
      ∃ x ∈ before ++ after, x.state ≠ .succeeded := by
    rw [hasRemaining_iff,h.jobId_eq,hlives]
    constructor
    · rintro ⟨x,hx,hne⟩
      rcases mem_append.mp hx with hx | hx
      · exact ⟨x,mem_append_left _ hx,hne⟩
      · rcases mem_cons.mp hx with rfl | hx
        · exact absurd rfl hne
        · exact ⟨x,mem_append_right _ hx,hne⟩
    · rintro ⟨x,hx,hne⟩
      refine ⟨x,?_,hne⟩
      rcases mem_append.mp hx with hx | hx
      · exact mem_append_left _ hx
      · exact mem_append_right _ (mem_cons_of_mem _ hx)
  by_cases hleft : u.hasRemaining context.jobId = true
  · have heq : s.settleSuccess fence context = u := if_pos hleft
    rw [heq]
    refine h.follows wf none rfl hothers ?_
    rw [hlife,hlives]
    exact .succeed _ _ before after _ pre post hopen hattempts
      (Or.inr ⟨hremaining.mp hleft,rfl⟩)
  · have heq : s.settleSuccess fence context = u.finishJob context.jobId .succeeded :=
      if_neg hleft
    have hdone : ∀ x ∈ before ++ after, x.state = .succeeded := by
      intro x hx
      by_contra hne
      exact hleft (hremaining.mpr ⟨x,hx,hne⟩)
    rw [heq]
    refine h.follows wf (some .succeeded) rfl hothers ?_
    rw [hlife]
    change JobLife.Step _ ⟨_,u.lives j.jobId⟩
    rw [hlives]
    exact .succeed _ _ before after _ pre post hopen hattempts (Or.inl ⟨hdone,rfl⟩)

theorem settleFailure_follows (failure : AttemptFailure) :
    Follows s (s.settleFailure fence context failure) := by
  let u := s.setAttempt fence.attemptId
    ({ · with status := .failed, failure := some failure.toValue })
  have hattempt : ∀ t : Store, t.attempts = u.attempts → AttemptUpdate s t a _ _ :=
    fun t ht => h.attemptUpdate ht (fun _ => rfl)
  cases hretry : retryAt context failure with
  | some time =>
    let v : Store := { u with
      operations := updateWhere (fun o => o.operationId = context.operationId)
        ({ · with status := .retryWait, nextEligibleAt := time }) u.operations }
    have heq : s.settleFailure fence context failure = v := by
      simp only [settleFailure,hretry]
      rfl
    have hoperation := @LeaseRows.operationUpdate s v now fence context a o j h _ rfl
      (fun _ => ⟨rfl,rfl,rfl⟩)
    obtain ⟨before,after,pre,post,hlife,hattempts,hnumber,hlives,hothers⟩ :=
      h.lives wf hoperation (hattempt v rfl)
    have hbudget : pre.length + 1 < (s.operationLife o).maxAttempts := by
      rw [← hnumber]
      unfold retryAt at hretry
      split at hretry
      · split at hretry
        next hlt =>
          rw [h.context_eq] at hlt
          exact hlt
        next => cases hretry
      · cases hretry
    rw [heq]
    refine h.follows wf none rfl hothers ?_
    rw [hlife,hlives]
    exact .retry _ before after _ pre post hopen hattempts hbudget
  | none =>
    let v := u.setOperationStatus context.operationId .failed
    have heq : s.settleFailure fence context failure = v.finishJob context.jobId .failed := by
      simp only [settleFailure,hretry]
      rfl
    have hoperation := @LeaseRows.operationUpdate s v now fence context a o j h _ rfl
      (fun _ => ⟨rfl,rfl,rfl⟩)
    obtain ⟨before,after,pre,post,hlife,hattempts,_,hlives,hothers⟩ :=
      h.lives wf hoperation (hattempt v rfl)
    rw [heq]
    refine h.follows wf (some .failed) rfl hothers ?_
    rw [hlife]
    change JobLife.Step _ ⟨_,v.lives j.jobId⟩
    rw [hlives]
    exact .fail _ before after _ pre post hopen hattempts

end Leased

theorem operationsOf_cancel (s : Store) (jobId id : JobId) :
    (s.cancelUnfinishedOperations jobId).operationsOf id =
      updateWhere (fun o => o.jobId = jobId ∧
        (o.status = .ready ∨ o.status = .running ∨ o.status = .retryWait))
        ({ · with status := .cancelled }) (s.operationsOf id) :=
  filter_updateWhere (fun _ => rfl)

theorem lives_cancel (s : Store) (jobId : JobId) :
    (s.cancelUnfinishedOperations jobId).lives jobId =
      (s.lives jobId).map cancel := by
  simp only [lives,operationsOf_cancel,updateWhere,map_map]
  refine map_congr_left ?_
  intro o ho
  have hjob := (mem_operationsOf.mp ho).2
  by_cases hunfinished : o.status = .ready ∨ o.status = .running ∨ o.status = .retryWait
  · simp only [Function.comp_apply,hjob,hunfinished,and_self,decide_true,if_true,
      operationLife,cancel]
    rfl
  · simp only [Function.comp_apply,hunfinished,and_false,decide_false,Bool.false_eq_true,
      if_false,operationLife,cancel]
    rfl

theorem lives_cancel_other (s : Store) {id : JobId} (hne : id ≠ jobId) :
    (s.cancelUnfinishedOperations jobId).lives id = s.lives id := by
  refine lives_congr ?_ (fun _ _ => rfl)
  rw [operationsOf_cancel]
  refine updateWhere_none ?_
  intro o ho
  have hjob := (mem_operationsOf.mp ho).2
  simp [hjob,hne]

theorem hasRunningAttempt_iff : s.hasRunningAttempt jobId = true ↔
    ∃ x ∈ s.lives jobId, .running ∈ x.attempts := by
  simp only [hasRunningAttempt,any_eq_true,decide_eq_true_eq,lives,mem_map,
    mem_operationsOf]
  constructor
  · rintro ⟨a,ha,hrunning,o,ho,hoperation,hjob⟩
    exact ⟨_,⟨o,⟨ho,hjob⟩,rfl⟩,
      mem_map.mpr ⟨a,mem_attemptsOf.mpr ⟨ha,hoperation.symm⟩,hrunning⟩⟩
  · rintro ⟨_,⟨o,⟨ho,hjob⟩,rfl⟩,hrunning⟩
    obtain ⟨a,ha,hstatus⟩ := mem_map.mp hrunning
    obtain ⟨hmem,hoperation⟩ := mem_attemptsOf.mp ha
    exact ⟨a,hmem,hstatus,o,ho,hoperation.symm,hjob⟩

theorem cancelJob_follows (wf : s.WellFormed) (h : s.cancelJob jobId = .ok t) : Follows s t := by
  obtain ⟨job,hjob,hcases⟩ := cancelJob_ok h
  obtain ⟨hmem,rfl⟩ := findJob_some hjob
  rcases hcases with ⟨_,rfl⟩ | ⟨hopen,hrunning,rfl⟩ | ⟨hopen,hidle,rfl⟩
  · exact follows_same rfl (fun _ => rfl)
  · refine follows_update wf hmem rfl (fun _ => rfl) (fun _ _ hid => of_decide_eq_true hid)
      (fun _ _ => rfl) ?_
    simp only [decide_true,if_true]
    exact .requestCancel _ _ hopen (hasRunningAttempt_iff.mp hrunning)
  · refine follows_update wf hmem rfl (fun _ => rfl) (fun _ _ hid => of_decide_eq_true hid)
      (fun id hne => lives_cancel_other s hne) ?_
    simp only [decide_true,if_true]
    change JobLife.Step _ ⟨_,(s.cancelUnfinishedOperations job.jobId).lives job.jobId⟩
    rw [lives_cancel]
    refine .cancel _ _ hopen ?_
    intro x hx hrunning
    rw [hasRunningAttempt_iff.mpr ⟨x,hx,hrunning⟩] at hidle
    cases hidle

theorem acknowledge_follows (wf : s.WellFormed)
    (h : s.acknowledgeJobCancellation now fence = .ok t) : Follows s t := by
  obtain ⟨context,hcontext,hstatus,_,rfl⟩ := acknowledgeJobCancellation_ok h
  obtain ⟨a,o,j,hrows⟩ := leaseRows hcontext
  let u := s.setAttempt fence.attemptId
    ({ · with status := .abandoned, failure := some jobCancelledFailure })
  have hattempt := @LeaseRows.attemptUpdate s u now fence context a o j hrows _ rfl (fun _ => rfl)
  have hoperation := @LeaseRows.operationUpdate s u now fence context a o j hrows id
    (updateWhere_id _ _).symm (fun _ => ⟨rfl,rfl,rfl⟩)
  obtain ⟨before,after,pre,post,hlife,hattempts,_,hlives,hothers⟩ :=
    hrows.lives wf hoperation hattempt
  refine hrows.follows wf (some .cancelled) rfl ?_ ?_
  · intro id hne
    rw [← hrows.jobId_eq] at hne
    exact (lives_cancel_other u hne).trans (hothers id (hrows.jobId_eq ▸ hne))
  · have hcancelling : j.status = .cancelling := by
      rw [hrows.context_eq] at hstatus
      exact hstatus
    rw [hlife,hcancelling,← hrows.jobId_eq]
    change JobLife.Step _ ⟨_,(u.cancelUnfinishedOperations context.jobId).lives context.jobId⟩
    rw [lives_cancel,hrows.jobId_eq,hlives]
    exact .acknowledge before after _ pre post hattempts

theorem startJob_follows (wf : s.WellFormed) (hjob : job ∈ s.jobs)
    (hopen : job.status = .queued ∨ job.status = .running ∨ job.status = .cancelling)
    (hjobs : t.jobs = (s.startJob job.jobId).jobs)
    (others : ∀ id ≠ job.jobId, t.lives id = s.lives id)
    (hstep : JobLife.Step (s.life job)
      ⟨if job.status = .cancelling then job.status else .running, t.lives job.jobId⟩) :
    Follows s t := by
  refine follows_update wf hjob hjobs (fun _ => rfl)
    (fun _ _ hid => (of_decide_eq_true hid).1) others ?_
  simp only [hopen,and_self,decide_true,if_true]
  exact hstep

section Claiming

variable {request : ClaimRequest} {attemptId : AttemptId} {operation : OperationRow}
  {selection : RecoverySelection} {row : AttemptRow} (wf : s.WellFormed)
  (recoverable : Recoverable now s job operation)

include wf recoverable

theorem started_follows (status : operation.status = .ready ∨ operation.status = .retryWait)
    (howner : row.operationId = operation.operationId) (hrunning : row.status = .running)
    (rows : t = { s.startJob job.jobId with
      attempts := s.attempts ++ [row] }.setOperationStatus operation.operationId .running) :
    Follows s t := by
  have hoperation : OperationUpdate s t operation ({ · with status := .running }) :=
    ⟨by rw [rows]; rfl,recoverable.operation_mem,fun _ => ⟨rfl,rfl,rfl⟩⟩
  have hattempts : ∀ id, t.attemptsOf id =
      s.attemptsOf id ++ if operation.operationId = id then [row] else [] := by
    intro id
    rw [rows]
    change (s.attempts ++ [row]).filter _ = _
    rw [filter_append,filter_cons,filter_nil,howner]
    split <;> simp_all [attemptsOf]
  have hother : ∀ id ≠ operation.operationId, t.attemptsOf id = s.attemptsOf id := by
    intro id hne
    rw [hattempts,if_neg (Ne.symm hne),append_nil]
  obtain ⟨before,after,hsplit,hs,ht⟩ := hoperation.lives_own wf hother
  have hlife : t.operationLife { operation with status := .running } =
      (s.operationLife operation).become .running
        ((s.operationLife operation).attempts ++ [.running]) := by
    simp only [operationLife,become,hattempts,if_true,map_append,
      map_cons,map_nil,hrunning]
  rw [hlife] at ht
  rw [recoverable.owned] at hs ht
  obtain ⟨hactive,hbudget⟩ : (job.status = .queued ∨ job.status = .running) ∧
      s.attemptsMade operation.operationId < operation.maxAttempts := by
    rcases recoverable.eligible with ⟨hactive,hbudget,_⟩ | ⟨hbusy,_⟩
    · exact ⟨hactive,hbudget⟩
    · rw [hbusy] at status
      rcases status with h | h <;> cases h
  refine startJob_follows wf recoverable.job_mem recoverable.open_job (by rw [rows]; rfl) ?_ ?_
  · intro id hne
    rw [← recoverable.owned] at hne
    exact hoperation.lives_other wf hother hne
  · have hstate : (if job.status = .cancelling then job.status else .running) = .running := by
      rcases hactive with h | h <;> rw [h] <;> decide
    rw [life,hstate,hs,ht]
    refine .start _ _ _ _ hactive ?_ status ?_
    · intro x hx
      obtain ⟨p,hp,rfl⟩ := mem_map.mp hx
      have hmem : p ∈ s.operationsOf operation.jobId := by
        rw [hsplit]
        exact mem_append_left _ hp
      obtain ⟨hpmem,hpjob⟩ := mem_operationsOf.mp hmem
      exact recoverable.predecessors p hpmem hpjob ((wf.ordinal_split hsplit).2 p hp)
    · rw [attemptsMade_eq wf] at hbudget
      rwa [operationLife,length_map]

theorem reclaimed_follows {latest previous : AttemptRow}
    (latest_eq : s.previousAttempt operation.operationId = some latest)
    (found : s.attempts.find? (lapsed now latest.attemptId) = some previous)
    (rows : t = { s.startJob job.jobId with
      attempts := updateWhere (lapsed now latest.attemptId)
        (reclaim now request selection.resume.ids) s.attempts }.setOperationStatus
          operation.operationId .running) : Follows s t := by
  have hoperation : OperationUpdate s t operation ({ · with status := .running }) :=
    ⟨by rw [rows]; rfl,recoverable.operation_mem,fun _ => ⟨rfl,rfl,rfl⟩⟩
  have hmem := mem_of_find?_eq_some found
  have hlapsed := lapsed_iff.mp (find?_some found)
  have hattempt : AttemptUpdate s t previous (lapsed now latest.attemptId)
      (reclaim now request selection.resume.ids) := by
    refine ⟨by rw [rows]; rfl,hmem,find?_some found,?_,fun _ => rfl⟩
    intro b _ hb
    exact (lapsed_iff.mp hb).1.trans hlapsed.1.symm
  obtain ⟨pre,hpre⟩ := previousAttempt_split wf latest_eq
  have hlatest : latest ∈ s.attemptsOf operation.operationId := by
    rw [hpre]
    exact mem_append_right _ (mem_singleton_self latest)
  obtain ⟨hlatestMem,hlatestOperation⟩ := mem_attemptsOf.mp hlatest
  obtain rfl := wf.attempt_eq hmem hlatestMem hlapsed.1
  obtain ⟨before,after,pre',post,hs,hattempts,_,ht⟩ :=
    lives_update wf hoperation hattempt hlatestOperation
  have hothers := lives_update_other wf hoperation hattempt hlatestOperation
  rw [recoverable.owned] at hs ht hothers
  refine startJob_follows wf recoverable.job_mem recoverable.open_job (by rw [rows]; rfl)
    hothers ?_
  have hbecome : (s.operationLife operation).become .running
      (pre' ++ (previous.reclaim now request selection.resume.ids).status :: post) =
      (s.operationLife operation).become .running (s.operationLife operation).attempts := by
    rw [hattempts]
    rfl
  rw [life,hs,ht,hbecome]
  refine .resume _ _ _ _ recoverable.open_job ?_
  rw [hattempts,hlapsed.2.1]
  exact mem_append_right _ mem_cons_self

theorem claimed_follows (claim : Claimed now request attemptId s job operation selection row t) :
    Follows s t := by
  cases claim with
  | started _ status fresh row_eq =>
    exact started_follows wf recoverable status (by rw [row_eq]) (by rw [row_eq]) rfl
  | reclaimed latest previous status latest_eq found =>
    exact reclaimed_follows wf recoverable latest_eq found rfl

end Claiming

section Insertion

variable {newId : Nat → OperationId} {operations : List OperationDefinition} {ordinal : Nat}

theorem operationsOf_insert
    (hrows : t.operations = s.operations ++ operationRows now jobId newId operations ordinal)
    (id : JobId) :
    t.operationsOf id = s.operationsOf id ++
      if jobId = id then operationRows now jobId newId operations ordinal else [] := by
  simp only [operationsOf,hrows,filter_append,operationRows_filter]

theorem insert_untouched (wf : s.WellFormed)
    (hrows : t.operations = s.operations ++ operationRows now jobId newId operations ordinal)
    (hattempts : t.attempts = s.attempts) (unique : (t.operations.map (·.operationId)).Nodup)
    (positive : ∀ d ∈ operations, d.maxAttempts ≠ 0) :
    ∀ x ∈ (operationRows now jobId newId operations ordinal).map t.operationLife,
      x.Untouched := by
  intro x hx
  obtain ⟨o,ho,rfl⟩ := mem_map.mp hx
  have hnone : t.attemptsOf o.operationId = [] := by
    refine filter_eq_nil_iff.mpr ?_
    intro a ha hsame
    rw [hattempts] at ha
    obtain ⟨old,hold,hid⟩ := wf.attempt_operation ha
    rw [hrows,map_append,nodup_append] at unique
    exact unique.2.2 _ (mem_map_of_mem hold) _ (mem_map_of_mem ho)
      (hid.trans (of_decide_eq_true hsame))
  refine ⟨(operationRows_owned o ho).2,?_,operationRows_budget positive o ho⟩
  simp only [operationLife,hnone,map_nil]

theorem lives_insert (hrows : t.operations = s.operations ++
      operationRows now jobId newId operations ordinal) (hattempts : t.attempts = s.attempts) :
    t.lives jobId = s.lives jobId ++
      (operationRows now jobId newId operations ordinal).map t.operationLife := by
  simp only [lives,operationsOf_insert hrows,if_true,map_append]
  congr 1
  refine map_congr_left ?_
  intro o _
  simp only [operationLife,attemptsOf,hattempts]

theorem lives_insert_other (hrows : t.operations = s.operations ++
      operationRows now jobId newId operations ordinal) (hattempts : t.attempts = s.attempts)
    {id : JobId} (hne : id ≠ jobId) : t.lives id = s.lives id := by
  refine lives_congr ?_ ?_
  · rw [operationsOf_insert hrows,if_neg (Ne.symm hne),append_nil]
  · intro o _
    simp only [attemptsOf,hattempts]

theorem operationRows_ne_nil (h : operations ≠ []) :
    operationRows now jobId newId operations ordinal ≠ [] := by
  cases operations with
  | nil => exact absurd rfl h
  | cons operation rest => exact cons_ne_nil _ _

theorem createJob_follows {definition : JobDefinition} (wf : s.WellFormed)
    (h : s.createJob now definition jobId newId = .ok t) : Follows s t := by
  obtain ⟨hne,hpositive,hfresh,hunique,ht⟩ := createJob_ok h
  have hrows : t.operations =
      s.operations ++ operationRows now jobId newId definition.operations 0 := by rw [ht]
  have hattempts : t.attempts = s.attempts := by rw [ht]
  have hjobs : t.jobs = s.jobs ++ [⟨jobId,definition.kind,definition.input,.queued,now⟩] := by
    rw [ht]
  intro job hjob
  rw [hjobs] at hjob
  rcases mem_append.mp hjob with hjob | hjob
  · refine Or.inr ⟨job,hjob,rfl,Or.inl ?_⟩
    rw [life,lives_insert_other hrows hattempts (hfresh job hjob)]
    rfl
  · obtain rfl := mem_singleton.mp hjob
    have hnone : s.lives jobId = [] := by
      rw [lives,operationsOf_fresh wf hfresh,map_nil]
    have hlives := lives_insert hrows hattempts
    rw [hnone,nil_append] at hlives
    refine Or.inl ⟨rfl,?_,?_⟩
    · rw [life,hlives]
      simpa only [ne_eq,map_eq_nil_iff] using operationRows_ne_nil hne
    · rw [life,hlives]
      exact insert_untouched wf hrows hattempts (hunique wf.operations_unique) hpositive

theorem continueJob_follows {feedback : String} (wf : s.WellFormed)
    (h : s.continueJob now jobId feedback newId = .ok t) : Follows s t := by
  obtain ⟨job,round,input,environments,hjob,_,hstatus,_,_,_,hunique,ht⟩ :=
    continueJob_ok h
  obtain ⟨hmem,rfl⟩ := findJob_some hjob
  have hrows : t.operations = s.operations ++ operationRows now job.jobId newId
      (continuationOperations (Text.trim feedback) round) (s.nextOrdinal job.jobId) := by rw [ht]
  have hattempts : t.attempts = s.attempts := by rw [ht]
  have hjobs : t.jobs = updateWhere (fun j => j.jobId = job.jobId)
      ({ · with input := input, status := .queued }) s.jobs := by rw [ht]
  refine follows_update wf hmem hjobs (fun _ => rfl) (fun _ _ hid => of_decide_eq_true hid)
    (fun id hne => lives_insert_other hrows hattempts hne) ?_
  simp only [decide_true,if_true]
  rw [life,hstatus,lives_insert hrows hattempts]
  refine .reopen _ _ ?_
    (insert_untouched wf hrows hattempts (hunique wf.operations_unique) ?_)
  · simp only [ne_eq,map_eq_nil_iff]
    exact operationRows_ne_nil (cons_ne_nil _ _)
  · intro d hd
    simp only [continuationOperations,mem_cons,not_mem_nil,or_false] at hd
    rcases hd with rfl | rfl | rfl <;> exact Nat.succ_ne_zero 2

end Insertion

theorem leased_follows {expiry : Timestamp} :
    Follows s { s with
      attempts := updateWhere (holds now fence) ({ · with leaseExpiresAt := expiry })
        s.attempts } := by
  refine follows_same rfl ?_
  intro id
  refine lives_congr rfl ?_
  intro o _
  have hrows : (updateWhere (holds now fence)
      (fun a : AttemptRow => { a with leaseExpiresAt := expiry }) s.attempts).filter
        (fun a => a.operationId = o.operationId) =
      updateWhere (holds now fence) ({ · with leaseExpiresAt := expiry })
        (s.attemptsOf o.operationId) := filter_updateWhere (fun _ => rfl)
  rw [attemptsOf,hrows]
  exact map_updateWhere (fun _ _ _ => rfl)

theorem settle_follows (wf : s.WellFormed) (hcontext : s.attemptContext now fence = some context)
    (hopen : context.jobStatus ≠ .cancelling) (settlement : AttemptSettlement) :
    Follows s (s.settle fence context settlement) := by
  obtain ⟨a,o,j,hrows⟩ := leaseRows hcontext
  have hstatus : j.status ≠ .cancelling := by
    rw [hrows.context_eq] at hopen
    exact hopen
  cases settlement with
  | succeeded => exact settleSuccess_follows hrows wf hstatus
  | failed failure => exact settleFailure_follows hrows wf hstatus failure

theorem Transition.follows (h : Transition now s continued fences t) (wf : s.WellFormed) :
    Follows s t := by
  cases h with
  | idle => exact follows_same rfl (fun _ => rfl)
  | environment _ change =>
    obtain ⟨hjobs,hoperations,hattempts⟩ := change.tables
    refine follows_same hjobs ?_
    intro id
    refine lives_congr (by simp only [operationsOf,hoperations]) ?_
    intro o _
    simp only [attemptsOf,hattempts]
  | leased => exact leased_follows
  | created _ _ _ _ result => exact createJob_follows wf result
  | continued _ _ _ _ result => exact continueJob_follows wf result
  | cancelled _ _ result => exact cancelJob_follows wf result
  | acknowledged _ _ result => exact acknowledge_follows wf result
  | settled _ _ settlement lease open_job => exact settle_follows wf lease open_job settlement
  | claimed _ _ _ _ _ _ _ recoverable _ claim => exact claimed_follows wf recoverable claim

structure Sound (s : Store) : Prop where
  wellFormed : s.WellFormed
  valid : ∀ job ∈ s.jobs, (s.life job).Valid

theorem empty_sound : Sound Store.empty :=
  ⟨Shape.empty_wellFormed,fun _ hjob => absurd hjob not_mem_nil⟩

theorem Sound.transition (h : s.Sound) (htransition : Transition now s continued fences t) :
    t.Sound := by
  refine ⟨htransition.wellFormed h.wellFormed,?_⟩
  intro job' hjob'
  rcases htransition.follows h.wellFormed job' hjob' with hfresh | ⟨job,hjob,_,hsame | hstep⟩
  · exact hfresh.valid
  · rw [hsame]
    exact h.valid job hjob
  · exact (h.valid job hjob).step hstep

theorem Sound.agrees (h : s.Sound) (hagrees : Agrees s t) : t.Sound := by
  obtain ⟨hjobs,hoperations,hattempts,_⟩ := hagrees
  refine ⟨h.wellFormed.of_shape (shape_eq (by rw [hjobs]) (by rw [hoperations])
    (by rw [hattempts])),?_⟩
  intro job hjob
  rw [hjobs] at hjob
  have hlives : t.lives job.jobId = s.lives job.jobId := by
    refine lives_congr (by simp only [operationsOf,hoperations]) ?_
    intro o _
    simp only [attemptsOf,hattempts]
  rw [life,hlives]
  exact h.valid job hjob

end Store

namespace System

theorem sound_step (sys : System) (call : Call) (h : sys.store.Sound) :
    (sys.step call).store.Sound := by
  obtain ⟨fences,t,htransition,hagrees,_,_⟩ := sys.step_transition call
  exact (h.transition htransition).agrees hagrees

theorem sound_run (clock : Timestamp) (calls : List Call) :
    ((init clock).run calls).store.Sound :=
  @Machine.run_invariant _ _ step (init clock) (fun sys => sys.store.Sound) sound_step
    Store.empty_sound calls

end System

end Coordinator
