import Factory.Coordinator.Recording
import Factory.Coordinator.SettledOperations

namespace Coordinator

open Result Table List

structure Numbered (events : List JobEventRow) (next : Nat) : Prop where
  ascending : events.Pairwise (fun a b => a.sequence < b.sequence)
  below : ∀ e ∈ events, e.sequence < next
  positive : ∀ e ∈ events, 0 < e.sequence
  started : 0 < next

namespace Store

inductive Logs (s t : Store) : Prop where
  | silent (events : t.events = s.events) (next : s.nextSequence ≤ t.nextSequence) : Logs s t
  | logged (row : JobEventRow) (events : t.events = s.events ++ [row])
      (numbered : row.sequence = s.nextSequence) (next : t.nextSequence = s.nextSequence + 1)
      (unsettled : ∀ o ∈ s.operations, o.status = .succeeded →
        row.operationId ≠ some o.operationId) : Logs s t

variable {now : Timestamp} {s t : Store} {command : Command} {response : Response}
  {fence : AttemptFence} {context : AttemptContextRow} {jobId : JobId}

variable {event : NewAttemptEvent} {checkpointId : CheckpointId} {record : Option CheckpointRecord}
  {checkpoint : Option NewCheckpoint}

theorem insertAttemptEvent_events {row : JobEventRow}
    (h : s.insertAttemptEvent context fence event = .ok (row, t)) :
    t.events = s.events ∧ t.nextSequence = s.nextSequence + 1 ∨
      ∃ logged : JobEventRow, logged.operationId = some context.operationId ∧
        logged.sequence = s.nextSequence ∧ t.events = s.events ++ [logged] ∧
        t.nextSequence = s.nextSequence + 1 := by
  simp only [insertAttemptEvent,bind_ok] at h
  obtain ⟨_,_,_,_,h⟩ := h
  split at h
  · simp only [pure_ok,pushEvent,Prod.mk.injEq] at h
    obtain ⟨-,rfl⟩ := h
    exact .inr ⟨_,rfl,rfl,rfl,rfl⟩
  · simp only [bind_ok,pure_ok,Prod.mk.injEq] at h
    obtain ⟨_,_,_,rfl⟩ := h
    exact .inl ⟨rfl,rfl⟩

theorem Logs.of_insert {middle : Store} {row : JobEventRow} (sound : s.Sound)
    (lease : s.attemptContext now fence = some context) (events : middle.events = s.events)
    (next : middle.nextSequence = s.nextSequence)
    (h : middle.insertAttemptEvent context fence event = .ok (row, t)) : Logs s t := by
  rcases insertAttemptEvent_events h with ⟨same,later⟩ | ⟨logged,own,numbered,grown,later⟩
  · refine .silent (same.trans events) ?_
    rw [later,next]
    exact Nat.le_succ _
  · refine .logged logged (by rw [grown,events]) (by rw [numbered,next]) (by rw [later,next]) ?_
    intro o known succeeded carried
    exact sound.leased_unfinished lease known (Option.some.inj (carried.symm.trans own)) succeeded

theorem settle_events (fence : AttemptFence) (context : AttemptContextRow)
    (settlement : AttemptSettlement) (s : Store) :
    (s.settle fence context settlement).events = s.events ∧
      (s.settle fence context settlement).nextSequence = s.nextSequence := by
  cases settlement with
  | succeeded =>
    simp only [settle,settleSuccess]
    split <;> exact ⟨rfl,rfl⟩
  | failed failure =>
    simp only [settle,settleFailure]
    split <;> exact ⟨rfl,rfl⟩

theorem insertOptionalCheckpoint_events
    (h : s.insertOptionalCheckpoint checkpoint checkpointId = .ok (record, t)) :
    t.events = s.events ∧ t.nextSequence = s.nextSequence := by
  rcases insertOptionalCheckpoint_ok h with ⟨_,_,rfl⟩ | ⟨_,_,_,_,insert⟩
  · exact ⟨rfl,rfl⟩
  · obtain ⟨_,_,_,rfl⟩ := insertCheckpoint_ok insert
    exact ⟨rfl,rfl⟩

theorem settleAttempt_logs {settlement : AttemptSettlement}
    {completionEvent : Option NewAttemptEvent} (sound : s.Sound)
    (h : s.settleAttemptWithEvent now fence settlement checkpoint completionEvent checkpointId =
      .ok (record, t)) : Logs s t := by
  simp only [settleAttemptWithEvent,bind_ok,lockAttemptContext_ok,ensure_ok,pure_ok] at h
  obtain ⟨_,_,_,_,context,⟨_,lease⟩,_,_,⟨_,saved⟩,stored,final,inserted,same⟩ := h
  obtain ⟨-,rfl⟩ := Prod.mk.inj same
  have kept := insertOptionalCheckpoint_events stored
  have settled := settle_events fence context settlement saved
  have events := settled.1.trans kept.1
  have next := settled.2.trans kept.2
  cases completionEvent with
  | none =>
    simp only [insertOptionalEvent,pure_ok] at inserted
    subst inserted
    exact .silent events next.ge
  | some event =>
    simp only [insertOptionalEvent,bind_ok,pure_ok] at inserted
    obtain ⟨⟨row,logged⟩,insert,rfl⟩ := inserted
    exact .of_insert sound lease events next insert

theorem exec_logs (sound : s.Sound) (h : s.exec now command = .ok (response, t)) : Logs s t := by
  cases logging : command.logs with
  | false =>
    obtain ⟨events,next⟩ := (exec_frame h).events logging
    exact .silent events next.ge
  | true =>
    cases command
    case settleAttempt =>
      simp only [exec,map_ok,Prod.exists,Prod.map,Prod.mk.injEq,id] at h
      obtain ⟨_,_,settled,_,rfl⟩ := h
      exact settleAttempt_logs sound settled
    case appendJobEvent =>
      simp only [exec,map_ok,Prod.exists,Prod.map,Prod.mk.injEq,id] at h
      obtain ⟨_,_,appended,_,rfl⟩ := h
      simp only [appendJobEvent,bind_ok,pure_ok,pushEvent,Prod.mk.injEq] at appended
      obtain ⟨_,_,_,_,_,rfl⟩ := appended
      exact .logged _ rfl rfl rfl fun _ _ _ same => by cases same
    case appendAttemptEvent =>
      simp only [exec,map_ok,Prod.exists,Prod.map,Prod.mk.injEq,id] at h
      obtain ⟨_,_,appended,_,rfl⟩ := h
      obtain ⟨_,lease,insert⟩ := appendAttemptEvent_ok appended
      exact .of_insert sound lease rfl rfl insert
    all_goals cases logging

theorem Logs.numbered (h : Logs s t) (ordered : Numbered s.events s.nextSequence) :
    Numbered t.events t.nextSequence := by
  cases h with
  | silent events next =>
    rw [events]
    exact ⟨ordered.ascending,fun e listed => Nat.lt_of_lt_of_le (ordered.below e listed) next,
      ordered.positive,Nat.lt_of_lt_of_le ordered.started next⟩
  | logged row events numbered next _ =>
    rw [events,next]
    refine ⟨?_,fun e listed => ?_,fun e listed => ?_,Nat.succ_pos _⟩
    · rw [pairwise_append]
      refine ⟨ordered.ascending,pairwise_singleton _ _,fun a old b new => ?_⟩
      rw [mem_singleton.mp new,numbered]
      exact ordered.below a old
    · rcases mem_append.mp listed with old | new
      · exact Nat.lt_succ_of_lt (ordered.below e old)
      · rw [mem_singleton.mp new,numbered]
        exact Nat.lt_succ_self _
    · rcases mem_append.mp listed with old | new
      · exact ordered.positive e old
      · rw [mem_singleton.mp new,numbered]
        exact ordered.started

def jobEvents (s : Store) (jobId : JobId) : List JobEventRow :=
  s.events.filter (fun e => e.jobId = jobId)

theorem Logs.settled_events (h : Logs s t) {o : OperationRow} (known : o ∈ s.operations)
    (succeeded : o.status = .succeeded) (jobId : JobId) :
    (t.jobEvents jobId).filter (fun e => e.operationId = some o.operationId) =
      (s.jobEvents jobId).filter (fun e => e.operationId = some o.operationId) := by
  cases h with
  | silent events _ => rw [jobEvents,jobEvents,events]
  | logged row events _ _ unsettled =>
    have foreign : ([row].filter (fun e => e.jobId = jobId)).filter
        (fun e => e.operationId = some o.operationId) = [] := by
      refine filter_eq_nil_iff.mpr fun e listed carried => ?_
      rw [mem_singleton.mp (mem_of_mem_filter listed)] at carried
      exact unsettled o known succeeded (of_decide_eq_true carried)
    rw [jobEvents,jobEvents,events,filter_append,filter_append,foreign,
      append_nil]

end Store

end Coordinator
