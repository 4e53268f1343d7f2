import Factory.Coordinator.Fencing
import Factory.Coordinator.JobLifecycle

namespace Coordinator

open Result Table List AttemptRow

namespace Store

structure Budget (s : Store) (o : OperationRow) (attempts : Nat) : Prop where
  numbered : (s.attemptsOf o.operationId).map (·.attemptNumber) = range' 1 attempts
  within : attempts ≤ o.maxAttempts
  ready : o.status = .ready → attempts = 0
  waiting : o.status = .retryWait → 1 ≤ attempts ∧ attempts < o.maxAttempts

structure Reclaims (s t : Store) (claimed : AttemptRow) : Prop where
  kept : t.attempts.map (·.key) = s.attempts.map (·.key)
  others : ∀ a ∈ s.attempts, a.attemptId ≠ claimed.attemptId → a ∈ t.attempts
  raised : ∃ a ∈ s.attempts, claimed.key = a.key ∧ claimed.status = a.status ∧
    claimed.failure = a.failure ∧ claimed.leaseEpoch = a.leaseEpoch + 1 ∧ claimed ∈ t.attempts

variable {s t : Store} {now : Timestamp}

variable {o : OperationRow}

theorem Sound.budget (h : s.Sound) (ho : o ∈ s.operations) :
    s.Budget o (s.attemptsOf o.operationId).length := by
  obtain ⟨job,hjob,hid⟩ := h.wellFormed.operation_job ho
  have hmem : o ∈ s.operationsOf job.jobId := mem_operationsOf.mpr ⟨ho,hid.symm⟩
  have hphase := ((h.valid job hjob).phase (operationLife_mem hmem)).1
  have hlength : (s.operationLife o).attempts.length = (s.attemptsOf o.operationId).length :=
    length_map _
  refine ⟨h.wellFormed.numbers _,hlength ▸ hphase.length_le,?_,?_⟩
  · intro hready
    rw [← hlength,hphase.untried_of_ready hready,length_nil]
  · intro hwaiting
    rw [← hlength]
    exact hphase.budget_of_waiting hwaiting

theorem reclaims_of_claimed {request : ClaimRequest} {attemptId : AttemptId} {job : JobRow}
    {operation : OperationRow} {selection : RecoverySelection} {row : AttemptRow}
    (hselection : s.recoverySelection job operation = .ok selection)
    (hcause : selection.cause = .leaseExpired)
    (claim : Claimed now request attemptId s job operation selection row t) :
    Reclaims s t row := by
  obtain ⟨_,_,_,_,hcases,_⟩ := recoverySelection_ok hselection
  cases claim with
  | started _ status _ _ =>
    rcases hcases with ⟨hrunning,_⟩ | ⟨_,hfresh,_⟩
    · rw [hrunning] at status
      rcases status with h | h <;> cases h
    · exact absurd hcause hfresh
  | reclaimed latest previous status latest_eq found =>
    have hmem := mem_of_find?_eq_some found
    have hhit := find?_some found
    have hid := (lapsed_iff.mp hhit).1
    refine ⟨map_updateWhere (fun _ _ _ => rfl),?_,previous,hmem,rfl,rfl,rfl,rfl,?_⟩
    · intro a ha hne
      refine mem_updateWhere.mpr ⟨a,ha,if_neg ?_⟩
      intro hlapsed
      exact hne ((lapsed_iff.mp hlapsed).1.trans hid.symm)
    · exact mem_updateWhere.mpr ⟨previous,hmem,if_pos hhit⟩

theorem exec_reclaims {command : Command} {lease : RecoveryLease}
    (h : s.exec now command = .ok (.lease (some lease), t))
    (hcause : lease.selection.cause = .leaseExpired) : Reclaims s t lease.attempt := by
  cases command <;>
    simp only [exec,map_ok,Prod.exists,Prod.map,Prod.mk.injEq,id,reduceCtorEq,false_and,
      and_false,exists_false,Function.comp_apply,Response.lease.injEq] at h
  case claimRecovery scope request locked attemptId =>
    obtain ⟨lease',t',h,rfl,rfl⟩ := h
    rcases claimRecovery_ok h with ⟨hnone,_⟩ | ⟨job,operation,selection,row,_,hselected,
      hlease,hclaim⟩
    · cases hnone
    · obtain rfl := Option.some.inj hlease
      exact reclaims_of_claimed hselected hcause hclaim

theorem findOperation_of_mem (wf : s.WellFormed) (ho : o ∈ s.operations) :
    s.findOperation o.operationId = some o :=
  find_key OperationRow.operationId wf.operations_unique ho

theorem findJob_of_mem (wf : s.WellFormed) {j : JobRow} (hj : j ∈ s.jobs) :
    s.findJob j.jobId = some j :=
  find_key JobRow.jobId wf.jobs_unique hj

theorem exhausted_failure (wf : s.WellFormed) {fence : AttemptFence} {time : Timestamp}
    {detail : Json.Value} {checkpoint : Option NewCheckpoint}
    {completionEvent : Option NewAttemptEvent} {checkpointId : CheckpointId}
    {record : Option CheckpointRecord}
    (h : s.settleAttemptWithEvent now fence (.failed (.retryAt time detail)) checkpoint
      completionEvent checkpointId = .ok (record, t)) {a : AttemptRow} (ha : a ∈ s.attempts)
    (hfence : a.attemptId = fence.attemptId) (ho : o ∈ s.operations)
    (howner : o.operationId = a.operationId) (hlast : a.attemptNumber = o.maxAttempts) :
    (t.findOperation o.operationId).map (·.status) = some .failed ∧
      (t.findJob o.jobId).map (·.status) = some .failed := by
  obtain ⟨context,hcontext,_,hjobs,hoperations,_,_⟩ := settleAttemptWithEvent_agrees h
  obtain ⟨a',o',j,hrows⟩ := leaseRows hcontext
  have hid : a'.attemptId = fence.attemptId := congrArg AttemptFence.attemptId hrows.fence_eq
  obtain rfl := wf.attempt_eq ha hrows.attempt_mem (hfence.trans hid.symm)
  obtain rfl := wf.operation_eq ho hrows.operation_mem
    (howner.trans hrows.operation_eq)
  have hretry : retryAt context (.retryAt time detail) = none := by
    simp only [retryAt,hrows.context_eq,hlast,lt_irrefl,if_false]
  have hsettle : s.settle fence context (.failed (.retryAt time detail)) =
      ((s.setAttempt fence.attemptId ({ · with
          status := .failed
          failure := some (AttemptFailure.retryAt time detail).toValue })).setOperationStatus
        context.operationId .failed).finishJob context.jobId .failed := by
    simp only [settle,settleFailure,hretry]
  rw [hsettle] at hjobs hoperations
  constructor
  · have hfind : t.findOperation o.operationId =
        (s.findOperation o.operationId).map ({ · with status := .failed }) := by
      simp only [findOperation,hoperations,hrows.context_eq]
      exact find_updateWhere OperationRow.operationId (fun _ => rfl)
    rw [hfind,findOperation_of_mem wf ho]
    rfl
  · have hfind : t.findJob o.jobId =
        (s.findJob o.jobId).map ({ · with status := .failed }) := by
      simp only [findJob,hjobs,hrows.context_eq]
      exact find_updateWhere JobRow.jobId (fun _ => rfl)
    rw [hfind,← hrows.job_eq,findJob_of_mem wf hrows.job_mem]
    rfl

end Store

namespace System

theorem keys_run (sys : System) (h : sys.store.Sound) (calls : List Call) :
    ∃ added, (sys.run calls).store.attempts.map (·.key) =
      sys.store.attempts.map (·.key) ++ added := by
  have hrun := @Machine.run_invariant _ _ step sys
    (fun later => later.store.Sound ∧ ∃ added, later.store.attempts.map (·.key) =
      sys.store.attempts.map (·.key) ++ added)
    (by
      rintro later call ⟨hsound,added,hadded⟩
      obtain ⟨fences,t,htransition,hagrees,_,_⟩ := later.step_transition call
      obtain ⟨more,hmore⟩ := htransition.attempts.keys hsound.wellFormed.attempts_unique
      refine ⟨sound_step later call hsound,added ++ more,?_⟩
      rw [hagrees.2.2.1,hmore,hadded,append_assoc])
    ⟨h,[],(append_nil _).symm⟩ calls
  exact hrun.2

theorem attempts_while_running {sys : System} (h : sys.store.Sound) (later : List Call)
    {a b : AttemptRow} (ha : a ∈ sys.store.attempts) (hb : b ∈ (sys.run later).store.attempts)
    (hsame : b.attemptId = a.attemptId) (hrunning : b.status = .running) :
    b.key = a.key ∧
      ((sys.run later).store.attemptsOf a.operationId).map (·.key) =
        (sys.store.attemptsOf a.operationId).map (·.key) := by
  obtain ⟨added,hadded⟩ := sys.keys_run h later
  have hsound : (sys.run later).store.Sound :=
    @Machine.run_invariant _ _ step sys (fun x => x.store.Sound) sound_step h later
  have hkey : b.key = a.key := by
    have hmem : a.key ∈ (sys.run later).store.attempts.map (·.key) := by
      rw [hadded]
      exact mem_append_left _ (mem_map_of_mem ha)
    obtain ⟨c,hc,hck⟩ := mem_map.mp hmem
    have hid : c.attemptId = b.attemptId := (congrArg Prod.fst hck).trans hsame.symm
    rw [← hsound.wellFormed.attempt_eq hc hb hid]
    exact hck
  refine ⟨hkey,?_⟩
  have hoperation : b.operationId = a.operationId := congrArg (fun k => k.2.1) hkey
  have hfilter : ∀ t : Store, (t.attemptsOf a.operationId).map (·.key) =
      (t.attempts.map (·.key)).filter (fun k => k.2.1 = a.operationId) := by
    intro t
    rw [filter_map]
    rfl
  have hgrown : ((sys.run later).store.attemptsOf a.operationId).map (·.key) =
      (sys.store.attemptsOf a.operationId).map (·.key) ++
        added.filter (fun k => k.2.1 = a.operationId) := by
    rw [hfilter,hfilter,hadded,filter_append]
  obtain ⟨o,ho,hoid⟩ := hsound.wellFormed.attempt_operation hb
  obtain ⟨job,hjob,hjid⟩ := hsound.wellFormed.operation_job ho
  obtain ⟨p,hp⟩ := hsound.runningAttempt hjob (Store.mem_runningAttempts.mpr
    ⟨hb,hrunning,o,Store.mem_operationsOf.mpr ⟨ho,hjid.symm⟩,hoid⟩)
  obtain ⟨pre,hpre⟩ := hp.last
  have hpid : p.operationId = a.operationId :=
    (Store.mem_attemptsOf.mp hp.attempt_mem).2.symm.trans hoperation
  rw [hpid] at hpre
  obtain ⟨front,back,hsplit⟩ :=
    append_of_mem (Store.mem_attemptsOf.mpr ⟨ha,rfl⟩)
  have hunique : (((sys.run later).store.attemptsOf a.operationId).map (·.attemptId)).Nodup :=
    hsound.wellFormed.attempts_unique.sublist (filter_sublist.map _)
  have hfresh : ∀ k ∈ pre.map key, ¬ k.1 = a.attemptId := by
    intro k hk hsame'
    obtain ⟨c,hc,rfl⟩ := mem_map.mp hk
    rw [hpre,map_append,nodup_append] at hunique
    exact hunique.2.2 _ (mem_map_of_mem hc) _ mem_cons_self (hsame'.trans hsame.symm)
  have hboth : front.map key ++ a.key :: (back.map key ++
      added.filter (fun k => k.2.1 = a.operationId)) = pre.map key ++ b.key :: [] := by
    have hleft := hgrown
    rw [hpre,hsplit] at hleft
    simpa using hleft.symm
  obtain ⟨_,_,htail⟩ := Pivot.unique hfresh
    (fun z hz => absurd hz not_mem_nil) (show a.key.1 = a.attemptId from rfl) hboth
  rw [hgrown,(append_eq_nil_iff.mp htail).2,append_nil]

theorem attempt_budget (clock : Timestamp) (calls : List Call) :
    (∀ o ∈ ((init clock).run calls).store.operations,
      ∃ k, ((init clock).run calls).store.Budget o k) ∧
    (∀ now command lease t,
      ((init clock).run calls).store.exec now command = .ok (.lease (some lease), t) →
      lease.selection.cause = .leaseExpired →
      ((init clock).run calls).store.Reclaims t lease.attempt) ∧
    (∀ later, ∀ a ∈ ((init clock).run calls).store.attempts,
      ∀ b ∈ (((init clock).run calls).run later).store.attempts,
      b.attemptId = a.attemptId → b.status = .running →
      b.key = a.key ∧
        ((((init clock).run calls).run later).store.attemptsOf a.operationId).map (·.key) =
          (((init clock).run calls).store.attemptsOf a.operationId).map (·.key)) ∧
    (∀ now fence time detail checkpoint event checkpointId record t,
      ((init clock).run calls).store.settleAttemptWithEvent now fence
        (.failed (.retryAt time detail)) checkpoint event checkpointId = .ok (record, t) →
      ∀ a ∈ ((init clock).run calls).store.attempts, a.attemptId = fence.attemptId →
      ∀ o ∈ ((init clock).run calls).store.operations, o.operationId = a.operationId →
      a.attemptNumber = o.maxAttempts →
      (t.findOperation o.operationId).map (·.status) = some .failed ∧
        (t.findJob o.jobId).map (·.status) = some .failed) := by
  have h := sound_run clock calls
  refine ⟨fun o ho => ⟨_,h.budget ho⟩,?_,?_,?_⟩
  · intro now command lease t hexec hcause
    exact Store.exec_reclaims hexec hcause
  · intro later a ha b hb hsame hrunning
    exact attempts_while_running h later ha hb hsame hrunning
  · intro now fence time detail checkpoint event checkpointId record t hsettle a ha hfence o ho
      howner hlast
    exact Store.exhausted_failure h.wellFormed hsettle ha hfence ho howner hlast

def exhaustedRun : List Call :=
  [⟨0, .createJob ⟨"demo", .null, [⟨"step", .null, 1⟩]⟩ "job" (fun _ => "operation")⟩,
    ⟨0, .claimRecovery .any ⟨"first", 1, none⟩ [] "attempt"⟩,
    ⟨1000000, .claimRecovery .any ⟨"second", 1, none⟩ [] "unused"⟩]

theorem attempt_budget_exhausted :
    ∃ record t, ((init 0).run exhaustedRun).store.settleAttemptWithEvent 1000001
        ⟨"attempt", "second", 2⟩ (.failed (.retryAt 5000000 .null)) none none "checkpoint" =
          .ok (record, t) ∧
      (t.findOperation "operation").map (·.status) = some .failed ∧
      (t.findJob "job").map (·.status) = some .failed := by
  obtain ⟨⟨record,t⟩,h⟩ := exists_ok (show
    (((init 0).run exhaustedRun).store.settleAttemptWithEvent 1000001
      ⟨"attempt","second",2⟩ (.failed (.retryAt 5000000 .null)) none none
      "checkpoint").toOption.isSome = true by decide)
  refine ⟨record,t,h,?_⟩
  exact (attempt_budget 0 exhaustedRun).2.2.2 _ _ _ _ _ _ _ _ _ h
    ⟨"attempt","operation",1,.running,"second",2,2000000,.leaseExpired,none,none,none⟩
    (by decide) rfl ⟨"operation","job",0,"step",.null,.running,1,0⟩ (by decide) rfl rfl

end System

end Coordinator
