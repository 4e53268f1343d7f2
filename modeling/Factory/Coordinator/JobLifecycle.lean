import Factory.Coordinator.LifecycleRefinement

namespace Coordinator

open Table List

namespace Store

def runningAttempts (s : Store) (jobId : JobId) : List AttemptRow :=
  s.attempts.filter (fun a => a.status = .running ∧
    s.operations.any (fun o => o.operationId = a.operationId ∧ o.jobId = jobId))

structure JobInvariant (s : Store) (job : JobRow) : Prop where
  ordinals : (s.operationsOf job.jobId).map (·.ordinal) =
    range (s.operationsOf job.jobId).length
  single : (s.runningAttempts job.jobId).length ≤ 1
  frontier : ∀ a ∈ s.runningAttempts job.jobId, ∃ o ∈ s.operationsOf job.jobId,
    a ∈ s.attemptsOf o.operationId ∧
      (∀ b ∈ s.attemptsOf o.operationId, b.attemptNumber ≤ a.attemptNumber) ∧
      o.status ≠ .succeeded ∧
      ∀ p ∈ s.operationsOf job.jobId, p.ordinal < o.ordinal → p.status = .succeeded
  running_iff : ∀ o ∈ s.operationsOf job.jobId,
    o.status = .running ↔ ∃ a, s.previousAttempt o.operationId = some a ∧ a.status = .running
  predecessors : ∀ o ∈ s.operationsOf job.jobId, s.attemptsOf o.operationId ≠ [] →
    ∀ p ∈ s.operationsOf job.jobId, p.ordinal < o.ordinal → p.status = .succeeded
  succeeded_iff : job.status = .succeeded ↔
    ∀ o ∈ s.operationsOf job.jobId, o.status = .succeeded
  failed_iff : job.status = .failed ↔ ∃ o ∈ s.operationsOf job.jobId, o.status = .failed
  cancelling : job.status = .cancelling → (s.runningAttempts job.jobId).length = 1
  quiet : job.status = .queued ∨ job.status = .succeeded ∨ job.status = .failed ∨
    job.status = .cancelled → s.runningAttempts job.jobId = []
  cancelled : job.status = .cancelled → ∀ o ∈ s.operationsOf job.jobId,
    o.status ≠ .ready ∧ o.status ≠ .running ∧ o.status ≠ .retryWait

variable {s : Store} {job : JobRow}

variable {a : AttemptRow} {jobId : JobId} {o : OperationRow} {before after : List OperationRow}

theorem mem_runningAttempts :
    a ∈ s.runningAttempts jobId ↔ a ∈ s.attempts ∧ a.status = .running ∧
      ∃ o ∈ s.operationsOf jobId, o.operationId = a.operationId := by
  simp only [runningAttempts,mem_filter,any_eq_true,decide_eq_true_eq,
    mem_operationsOf]
  constructor
  · rintro ⟨ha,hrunning,o,ho,hid,hjob⟩
    exact ⟨ha,hrunning,o,⟨ho,hjob⟩,hid⟩
  · rintro ⟨ha,hrunning,o,⟨ho,hjob⟩,hid⟩
    exact ⟨ha,hrunning,o,ho,hid,hjob⟩

theorem operationLife_mem (ho : o ∈ s.operationsOf jobId) :
    s.operationLife o ∈ s.lives jobId :=
  mem_map_of_mem ho

theorem life_split (hsplit : s.operationsOf job.jobId = before ++ o :: after) :
    s.life job = ⟨job.status,
      before.map s.operationLife ++ s.operationLife o :: after.map s.operationLife⟩ := by
  simp only [life,lives,hsplit,map_append,map_cons]

theorem ordinal_before (wf : s.WellFormed) {p : OperationRow}
    (hsplit : s.operationsOf jobId = before ++ o :: after) (hp : p ∈ s.operationsOf jobId)
    (hlt : p.ordinal < o.ordinal) : p ∈ before := by
  rw [hsplit] at hp
  rcases mem_append.mp hp with hp | hp
  · exact hp
  · rcases mem_cons.mp hp with rfl | hp
    · omega
    · obtain ⟨front,back,rfl⟩ := append_of_mem hp
      have hlater : s.operationsOf jobId = (before ++ o :: front) ++ p :: back := by
        rw [hsplit]
        simp
      have ho := (wf.ordinal_split hlater).2 o
        (mem_append_right _ mem_cons_self)
      omega

theorem previousAttempt_last (wf : s.WellFormed) {operationId : OperationId} {pre : List AttemptRow}
    (hsplit : s.attemptsOf operationId = pre ++ [a]) :
    s.previousAttempt operationId = some a := by
  cases hprevious : s.previousAttempt operationId with
  | none =>
    have hnil : s.attemptsOf operationId = [] := argmax_eq_none.mp hprevious
    rw [hsplit] at hnil
    exact absurd hnil (by simp)
  | some b =>
    obtain ⟨front,hfront⟩ := previousAttempt_split wf hprevious
    rw [hsplit] at hfront
    have hlast := congrArg getLast? hfront
    rw [getLast?_concat,getLast?_concat] at hlast
    exact hlast.symm

theorem active_attempts {k : Nat} (hactive : (s.operationLife o).Active k) :
    ∃ pre a, s.attemptsOf o.operationId = pre ++ [a] ∧ a.status = .running ∧
      ∀ b ∈ s.attemptsOf o.operationId, b.status = .running → b = a := by
  have hstatuses : (s.attemptsOf o.operationId).map (·.status) =
      replicate k .failed ++ [.running] := hactive.used.attempts
  obtain ⟨pre,last,hsplit,hpre,hlast⟩ := map_eq_append_iff.mp hstatuses
  obtain ⟨a,rfl,ha⟩ := map_eq_singleton_iff.mp hlast
  refine ⟨pre,a,hsplit,ha,?_⟩
  intro b hb hrunning
  rw [hsplit] at hb
  rcases mem_append.mp hb with hb | hb
  · have hfailed : b.status ∈ replicate k AttemptState.failed := by
      rw [← hpre]
      exact mem_map_of_mem hb
    rw [eq_of_mem_replicate hfailed] at hrunning
    cases hrunning
  · exact mem_singleton.mp hb

structure RunningAttempt (s : Store) (job : JobRow) (a : AttemptRow) (o : OperationRow) : Prop where
  operation_mem : o ∈ s.operationsOf job.jobId
  attempt_mem : a ∈ s.attemptsOf o.operationId
  status : o.status = .running
  last : ∃ pre, s.attemptsOf o.operationId = pre ++ [a]
  unique : ∀ b ∈ s.attemptsOf o.operationId, b.status = .running → b = a
  others : ∀ p ∈ s.operationsOf job.jobId, .running ∈ (s.operationLife p).attempts → p = o
  predecessors : ∀ p ∈ s.operationsOf job.jobId, p.ordinal < o.ordinal → p.status = .succeeded
  job_status : job.status = .running ∨ job.status = .cancelling

theorem forall_lives {P : OperationState → Prop} :
    (∀ x ∈ s.lives jobId, P x.state) ↔ ∀ o ∈ s.operationsOf jobId, P o.status := by
  simp only [lives,mem_map,forall_exists_index,and_imp,forall_apply_eq_imp_iff₂,
    operationLife]

section Invariant

variable (h : s.Sound) (hjob : job ∈ s.jobs)

include h hjob

theorem Sound.runningAttempt (ha : a ∈ s.runningAttempts job.jobId) :
    ∃ o, RunningAttempt s job a o := by
  obtain ⟨hmem,hrunning,o,ho,hid⟩ := mem_runningAttempts.mp ha
  have hattempt : a ∈ s.attemptsOf o.operationId := mem_attemptsOf.mpr ⟨hmem,hid.symm⟩
  have hlife : .running ∈ (s.operationLife o).attempts :=
    mem_map.mpr ⟨a,hattempt,hrunning⟩
  obtain ⟨before,after,hsplit⟩ := append_of_mem ho
  have hvalid := h.valid job hjob
  rw [life_split hsplit] at hvalid
  obtain ⟨⟨k,hactive⟩,hdone,huntouched,hstate⟩ := hvalid.current hlife
  obtain ⟨pre,last,hlast,_,hunique⟩ := active_attempts hactive
  obtain rfl := hunique a hattempt hrunning
  refine ⟨o,ho,hattempt,hactive.state,⟨pre,hlast⟩,hunique,?_,?_,hstate⟩
  · intro p hp hbusy
    rw [hsplit] at hp
    rcases mem_append.mp hp with hp | hp
    · obtain ⟨j,hj⟩ := hdone _ (mem_map_of_mem hp)
      exact absurd hbusy hj.not_running
    · rcases mem_cons.mp hp with rfl | hp
      · rfl
      · exact absurd hbusy (huntouched _ (mem_map_of_mem hp)).not_running
  · intro p hp hlt
    obtain ⟨j,hj⟩ := hdone _
      (mem_map_of_mem (ordinal_before h.wellFormed hsplit hp hlt))
    exact hj.state

theorem Sound.running_unique {b : AttemptRow} (ha : a ∈ s.runningAttempts job.jobId)
    (hb : b ∈ s.runningAttempts job.jobId) : b = a := by
  obtain ⟨o,ho⟩ := h.runningAttempt hjob ha
  obtain ⟨p,hp⟩ := h.runningAttempt hjob hb
  have hrunning := (mem_runningAttempts.mp hb).2.1
  have hbusy : .running ∈ (s.operationLife p).attempts :=
    mem_map.mpr ⟨b,hp.attempt_mem,hrunning⟩
  obtain rfl := ho.others p hp.operation_mem hbusy
  exact ho.unique b hp.attempt_mem hrunning

theorem Sound.running_length :
    (s.runningAttempts job.jobId).length ≤ 1 := by
  have hnodup : (s.runningAttempts job.jobId).Nodup :=
    (List.Nodup.of_map _ h.wellFormed.attempts_unique).sublist filter_sublist
  have hsame : ∀ a ∈ s.runningAttempts job.jobId, ∀ b ∈ s.runningAttempts job.jobId, b = a :=
    fun a ha b hb => h.running_unique hjob ha hb
  match hrows : s.runningAttempts job.jobId, hnodup with
  | [], _ => simp
  | [a], _ => simp
  | a :: b :: rest, hnodup =>
    rw [hrows] at hsame
    have hba := hsame a (by simp) b (by simp)
    rw [hba] at hnodup
    simp at hnodup

theorem Sound.frontier (ha : a ∈ s.runningAttempts job.jobId) :
    ∃ o ∈ s.operationsOf job.jobId,
    a ∈ s.attemptsOf o.operationId ∧
      (∀ b ∈ s.attemptsOf o.operationId, b.attemptNumber ≤ a.attemptNumber) ∧
      o.status ≠ .succeeded ∧
      ∀ p ∈ s.operationsOf job.jobId, p.ordinal < o.ordinal → p.status = .succeeded := by
  obtain ⟨o,ho⟩ := h.runningAttempt hjob ha
  refine ⟨o,ho.operation_mem,ho.attempt_mem,?_,by rw [ho.status]; decide,ho.predecessors⟩
  obtain ⟨pre,hpre⟩ := ho.last
  have hlatest := previousAttempt_last h.wellFormed hpre
  intro b hb
  exact le_of_mem_argmax hb hlatest

theorem Sound.running_iff (ho : o ∈ s.operationsOf job.jobId) :
    o.status = .running ↔
      ∃ a, s.previousAttempt o.operationId = some a ∧ a.status = .running := by
  constructor
  · intro hstatus
    obtain ⟨k,hactive⟩ :=
      ((h.valid job hjob).phase (operationLife_mem ho)).1.active_of_running hstatus
    obtain ⟨pre,a,hsplit,hrunning,_⟩ := active_attempts hactive
    exact ⟨a,previousAttempt_last h.wellFormed hsplit,hrunning⟩
  · rintro ⟨a,hlatest,hrunning⟩
    have hattempt : a ∈ s.attemptsOf o.operationId := argmax_mem hlatest
    obtain ⟨hmem,hid⟩ := mem_attemptsOf.mp hattempt
    obtain ⟨p,hp⟩ := h.runningAttempt hjob
      (mem_runningAttempts.mpr ⟨hmem,hrunning,o,ho,hid.symm⟩)
    obtain rfl := hp.others o ho (mem_map.mpr ⟨a,hattempt,hrunning⟩)
    exact hp.status

theorem Sound.predecessors {p : OperationRow} (ho : o ∈ s.operationsOf job.jobId)
    (htried : s.attemptsOf o.operationId ≠ []) (hp : p ∈ s.operationsOf job.jobId)
    (hlt : p.ordinal < o.ordinal) :
    p.status = .succeeded := by
  obtain ⟨before,after,hsplit⟩ := append_of_mem ho
  have hvalid := h.valid job hjob
  rw [life_split hsplit] at hvalid
  have hattempts : (s.operationLife o).attempts ≠ [] := by
    simpa only [operationLife,ne_eq,map_eq_nil_iff] using htried
  obtain ⟨k,hk⟩ := hvalid.attempted hattempts _
    (mem_map_of_mem (ordinal_before h.wellFormed hsplit hp hlt))
  exact hk.state

theorem Sound.succeeded_iff :
    job.status = .succeeded ↔ ∀ o ∈ s.operationsOf job.jobId, o.status = .succeeded :=
  (h.valid job hjob).succeeded_iff.trans (forall_lives (P := (· = .succeeded)))

theorem Sound.failed_iff :
    job.status = .failed ↔ ∃ o ∈ s.operationsOf job.jobId, o.status = .failed := by
  have hlives : (∃ x ∈ s.lives job.jobId, x.state = .failed) ↔
      ∃ o ∈ s.operationsOf job.jobId, o.status = .failed := by
    simp only [lives,mem_map,exists_exists_and_eq_and,operationLife]
  exact (h.valid job hjob).failed_iff.trans hlives

theorem Sound.quiet (hstatus : job.status ≠ .running ∧ job.status ≠ .cancelling) :
    s.runningAttempts job.jobId = [] := by
  refine eq_nil_iff_forall_not_mem.mpr ?_
  intro a ha
  obtain ⟨o,ho⟩ := h.runningAttempt hjob ha
  rcases ho.job_status with hrunning | hcancelling
  · exact hstatus.1 hrunning
  · exact hstatus.2 hcancelling

theorem Sound.cancelling (hstatus : job.status = .cancelling) :
    (s.runningAttempts job.jobId).length = 1 := by
  obtain ⟨x,hx,hrunning⟩ := (h.valid job hjob).cancelling_active hstatus
  obtain ⟨o,ho,rfl⟩ := mem_map.mp hx
  obtain ⟨a,ha,hstatus⟩ := mem_map.mp hrunning
  obtain ⟨hmem,hid⟩ := mem_attemptsOf.mp ha
  have hin : a ∈ s.runningAttempts job.jobId :=
    mem_runningAttempts.mpr ⟨hmem,hstatus,o,ho,hid.symm⟩
  have hle := h.running_length hjob
  have hpos := length_pos_of_mem hin
  omega

theorem Sound.cancelled (hstatus : job.status = .cancelled) :
    ∀ o ∈ s.operationsOf job.jobId,
      o.status ≠ .ready ∧ o.status ≠ .running ∧ o.status ≠ .retryWait := by
  intro o ho
  have hclosed : o.status = .succeeded ∨ o.status = .cancelled :=
    (h.valid job hjob).cancelled_closed hstatus _ (operationLife_mem ho)
  rcases hclosed with hclosed | hclosed <;> rw [hclosed] <;> decide

end Invariant

end Store

theorem job_lifecycle_invariant (clock : Timestamp) (calls : List Call) :
    ∀ job ∈ ((System.init clock).run calls).store.jobs,
      ((System.init clock).run calls).store.JobInvariant job := by
  intro job hjob
  have h := System.sound_run clock calls
  refine ⟨h.wellFormed.ordinals _,h.running_length hjob,fun a ha => h.frontier hjob ha,
    fun o ho => h.running_iff hjob ho,fun o ho htried p hp => h.predecessors hjob ho htried hp,
    h.succeeded_iff hjob,h.failed_iff hjob,h.cancelling hjob,?_,h.cancelled hjob⟩
  intro hstatus
  refine h.quiet hjob ?_
  rcases hstatus with hstatus | hstatus | hstatus | hstatus <;> rw [hstatus] <;> decide

def cancellingRun : List Call :=
  [⟨0, .createJob ⟨"demo", .null, [⟨"first", .null, 2⟩, ⟨"second", .null, 1⟩]⟩ "job"
      (fun i => if i = 0 then "first" else "second")⟩,
    ⟨0, .claimRecovery .any ⟨"worker", 60, none⟩ [] "attempt"⟩,
    ⟨1, .cancelJob "job"⟩]

theorem job_lifecycle_cancelling :
    (⟨"job", "demo", .null, .cancelling, 0⟩ : JobRow) ∈
        ((System.init 0).run cancellingRun).store.jobs ∧
      ((System.init 0).run cancellingRun).store.JobInvariant
        ⟨"job", "demo", .null, .cancelling, 0⟩ :=
  ⟨by decide,job_lifecycle_invariant 0 cancellingRun _ (by decide)⟩

end Coordinator
