import Factory.Coordinator.JobLifecycle

namespace Coordinator

open Result Table List

namespace Store

variable {s : Store} {job : JobRow} {operation o p : OperationRow}
  {a b : AttemptRow} {c : CheckpointRecord}

def WrittenBy (s : Store) (c : CheckpointRecord) (operationId : OperationId) : Prop :=
  ∃ a ∈ s.attempts, a.attemptId = c.attemptId ∧ a.operationId = operationId

namespace WellFormed

theorem ordinals_unique (wf : s.WellFormed) (ho : o ∈ s.operations) (hp : p ∈ s.operations)
    (job : o.jobId = p.jobId) (same : o.ordinal = p.ordinal) : o = p := by
  have nodup : ((s.operationsOf p.jobId).map (·.ordinal)).Nodup := by
    rw [wf.ordinals]
    exact nodup_range
  exact inj_on_of_nodup_map nodup (mem_operationsOf.mpr ⟨ho,job⟩)
    (mem_operationsOf.mpr ⟨hp,rfl⟩) same

theorem numbers_unique (wf : s.WellFormed) (ha : a ∈ s.attempts) (hb : b ∈ s.attempts)
    (operation : a.operationId = b.operationId) (same : a.attemptNumber = b.attemptNumber) :
    a = b := by
  have nodup : ((s.attemptsOf b.operationId).map (·.attemptNumber)).Nodup := by
    rw [wf.numbers]
    exact nodup_range'
  exact inj_on_of_nodup_map nodup (mem_attemptsOf.mpr ⟨ha,operation⟩)
    (mem_attemptsOf.mpr ⟨hb,rfl⟩) same

theorem operation_at (wf : s.WellFormed) (ho : o ∈ s.operations) {ordinal : Nat}
    (below : ordinal < o.ordinal) :
    ∃ p ∈ s.operations, p.jobId = o.jobId ∧ p.ordinal = ordinal := by
  have ordinals := wf.ordinals o.jobId
  have bound : o.ordinal ∈ range (s.operationsOf o.jobId).length := by
    rw [← ordinals]
    exact mem_map_of_mem (mem_operationsOf.mpr ⟨ho,rfl⟩)
  have hit : ordinal ∈ (s.operationsOf o.jobId).map (·.ordinal) := by
    rw [ordinals]
    exact mem_range.mpr (below.trans (mem_range.mp bound))
  obtain ⟨p,hp,same⟩ := mem_map.mp hit
  obtain ⟨member,owner⟩ := mem_operationsOf.mp hp
  exact ⟨p,member,owner,same⟩

end WellFormed

theorem done_attempts {k : Nat} (done : (s.operationLife o).Done k) :
    ∃ pre a, s.attemptsOf o.operationId = pre ++ [a] ∧ a.status = .succeeded := by
  have statuses : (s.attemptsOf o.operationId).map (·.status) =
      replicate k .failed ++ [.succeeded] := done.used.attempts
  obtain ⟨pre,last,split,_,tail⟩ := map_eq_append_iff.mp statuses
  obtain ⟨a,rfl,status⟩ := map_eq_singleton_iff.mp tail
  exact ⟨pre,a,split,status⟩

theorem Sound.succeeded_attempt (h : s.Sound) (ho : o ∈ s.operations)
    (status : o.status = .succeeded) :
    ∃ a ∈ s.attempts, a.operationId = o.operationId ∧ a.status = .succeeded ∧
      ∀ b ∈ s.attempts, b.operationId = o.operationId → b.attemptNumber ≤ a.attemptNumber := by
  obtain ⟨job,hjob,owner⟩ := h.wellFormed.operation_job ho
  have phase := ((h.valid job hjob).phase
    (operationLife_mem (mem_operationsOf.mpr ⟨ho,owner.symm⟩))).1
  obtain ⟨k,done⟩ := phase.done_of_succeeded status
  obtain ⟨pre,a,split,succeeded⟩ := done_attempts done
  have last := previousAttempt_last h.wellFormed split
  have mem : a ∈ s.attemptsOf o.operationId := argmax_mem last
  obtain ⟨ha,owned⟩ := mem_attemptsOf.mp mem
  refine ⟨a,ha,owned,succeeded,?_⟩
  intro b hb bOwned
  exact le_of_mem_argmax (mem_attemptsOf.mpr ⟨hb,bOwned⟩) last

theorem mem_checkpointRows {jobId : JobId} {ordinal : Nat}
    {row : CheckpointRecord × AttemptRow × OperationRow} :
    row ∈ s.checkpointRows jobId ordinal ↔ row.1 ∈ s.checkpoints ∧ row.2.1 ∈ s.attempts ∧
      row.2.1.attemptId = row.1.attemptId ∧ row.2.2 ∈ s.operations ∧
      row.2.2.operationId = row.2.1.operationId ∧ row.2.2.jobId = jobId ∧
      row.2.2.ordinal ≤ ordinal := by
  obtain ⟨c,a,o⟩ := row
  simp only [checkpointRows,mem_filter,mem_flatMap,mem_map,decide_eq_true_eq,
    Prod.mk.injEq]
  constructor
  · rintro ⟨⟨_,hc,_,⟨ha,own⟩,_,⟨ho,owned⟩,rfl,rfl,rfl⟩,job,below⟩
    exact ⟨hc,ha,own,ho,owned,job,below⟩
  · rintro ⟨hc,ha,own,ho,owned,job,below⟩
    exact ⟨⟨c,hc,a,⟨ha,own⟩,o,⟨ho,owned⟩,rfl,rfl,rfl⟩,job,below⟩

theorem recoveryCheckpoint_none (h : s.recoveryCheckpoint operation = none) {ordinal : Nat}
    (below : ordinal ≤ operation.ordinal) (ho : o ∈ s.operations)
    (job : o.jobId = operation.jobId) (at_ : o.ordinal = ordinal) :
    ∀ c ∈ s.checkpoints, ¬ s.WrittenBy c o.operationId := by
  rintro c hc ⟨a,ha,own,owned⟩
  have empty : s.checkpointRows operation.jobId operation.ordinal = [] := by
    simpa only [recoveryCheckpoint,Option.map_eq_none_iff,lastBy,argmax_eq_none] using h
  have hit : (c, a, o) ∈ s.checkpointRows operation.jobId operation.ordinal :=
    mem_checkpointRows.mpr ⟨hc,ha,own,ho,owned.symm,job,at_ ▸ below⟩
  rw [empty] at hit
  cases hit

theorem recoveryCheckpoint_some (h : s.recoveryCheckpoint operation = some c) :
    c ∈ s.checkpoints ∧ ∃ a ∈ s.attempts, a.attemptId = c.attemptId ∧
      ∃ o ∈ s.operations, o.operationId = a.operationId ∧ o.jobId = operation.jobId ∧
        o.ordinal ≤ operation.ordinal ∧
        ∀ d ∈ s.checkpoints, ∀ b ∈ s.attempts, b.attemptId = d.attemptId →
          ∀ p ∈ s.operations, p.operationId = b.operationId → p.jobId = operation.jobId →
            p.ordinal ≤ operation.ordinal → checkpointKey (d, b, p) ≤ checkpointKey (c, a, o) := by
  simp only [recoveryCheckpoint,Option.map_eq_some_iff,lastBy] at h
  obtain ⟨⟨_,a,o⟩,last,rfl⟩ := h
  obtain ⟨hc,ha,own,ho,owned,job,below⟩ := mem_checkpointRows.mp (argmax_mem last)
  refine ⟨hc,a,ha,own,o,ho,owned,job,below,?_⟩
  intro d hd b hb bOwn p hp pOwned pJob pBelow
  exact le_of_mem_argmax
    (mem_checkpointRows.mpr ⟨hd,hb,bOwn,hp,pOwned,pJob,pBelow⟩) last

theorem checkpointKey_le {row row' : CheckpointRecord × AttemptRow × OperationRow} :
    checkpointKey row ≤ checkpointKey row' ↔
      row.2.2.ordinal < row'.2.2.ordinal ∨ row.2.2.ordinal = row'.2.2.ordinal ∧
        (row.2.1.attemptNumber < row'.2.1.attemptNumber ∨
          row.2.1.attemptNumber = row'.2.1.attemptNumber ∧ row.1.sequence ≤ row'.1.sequence) := by
  simp only [checkpointKey,Prod.Lex.toLex_le_toLex]

end Store

end Coordinator
