import Factory.Coordinator.EventLog

namespace Coordinator

open Table List

namespace EventLog

def pending (log : EventLog) : List (Nat × JobEventRow) :=
  log.transactions.filterMap (fun t => t.inserted.map (fun e => (t.id, e)))

variable {p : Nat × JobEventRow} {id : Nat} {rest page : List JobEventRow}

theorem mem_pending {log : EventLog} :
    p ∈ log.pending ↔ ∃ t ∈ log.transactions, t.inserted = some p.2 ∧ t.id = p.1 := by
  simp only [pending,mem_filterMap,Option.map_eq_some_iff]
  constructor
  · rintro ⟨t,ht,e,he,rfl⟩
    exact ⟨t,ht,he,rfl⟩
  · rintro ⟨t,ht,he,hid⟩
    exact ⟨t,ht,p.2,he,by rw [hid]⟩

theorem find_mem {log : EventLog} {t : Transaction} (h : log.find id = some t) :
    t ∈ log.transactions ∧ t.id = id := by
  have found := find?_some h
  exact ⟨mem_of_find?_eq_some h,of_decide_eq_true found⟩

theorem pending_close {log : EventLog} (h : p ∈ (log.close id).pending) :
    p ∈ log.pending ∧ p.1 ≠ id := by
  obtain ⟨t,ht,hrow,hid⟩ := mem_pending.mp h
  obtain ⟨ht,hne⟩ := mem_filter.mp ht
  exact ⟨mem_pending.mpr ⟨t,ht,hrow,hid⟩,hid ▸ of_decide_eq_true hne⟩

theorem pending_start {log : EventLog} {t : Transaction} (h : p ∈ (log.start t).pending) :
    p ∈ log.pending ∨ (t.inserted = some p.2 ∧ t.id = p.1) := by
  obtain ⟨u,hu,hrow,hid⟩ := mem_pending.mp h
  rcases mem_append.mp hu with hu | hu
  · exact .inl (mem_pending.mpr ⟨u,hu,hrow,hid⟩)
  · cases mem_singleton.mp hu
    exact .inr ⟨hrow,hid⟩

inductive Change (jobId : JobId) (log : EventLog) : EventLog → Prop where
  | opened {t : EventLog} (committed : t.committed = log.committed)
      (cursor : t.cursor = log.cursor) (received : t.received = log.received)
      (allocated : log.nextSequence ≤ t.nextSequence)
      (pending : ∀ p ∈ t.pending, p ∈ log.pending) : Change jobId log t
  | inserted {t : EventLog} (p : Nat × JobEventRow) (committed : t.committed = log.committed)
      (cursor : t.cursor = log.cursor) (received : t.received = log.received)
      (allocated : t.nextSequence = log.nextSequence + 1)
      (sequence : p.2.sequence = log.nextSequence) (job : p.2.jobId = jobId)
      (pending : ∀ q ∈ t.pending, q ∈ log.pending ∨ q = p) : Change jobId log t
  | committed {t : EventLog} (p : Nat × JobEventRow) (found : p ∈ log.pending)
      (committed : t.committed = log.committed ++ [p.2])
      (cursor : t.cursor = log.cursor) (received : t.received = log.received)
      (allocated : t.nextSequence = log.nextSequence)
      (pending : ∀ q ∈ t.pending, q ∈ log.pending ∧ q.1 ≠ p.1)
      (first : ∀ q ∈ log.pending, p.2.sequence ≤ q.2.sequence) : Change jobId log t
  | read (limit : Nat) :
      Change jobId log
        { log with
          cursor := (eventPage jobId log.cursor limit log.committed).nextCursor
          received := log.received ++ (eventPage jobId log.cursor limit log.committed).events }

def InCommitOrder (log : EventLog) : EventStep → Prop
  | .commit id => ∀ t ∈ log.transactions, t.id = id → ∀ e ∈ t.inserted,
      ∀ u ∈ log.transactions, ∀ f ∈ u.inserted, e.sequence ≤ f.sequence
  | _ => True

instance (log : EventLog) : ∀ input, Decidable (log.InCommitOrder input)
  | .commit id => inferInstanceAs (Decidable (∀ t ∈ log.transactions, t.id = id →
      ∀ e ∈ t.inserted, ∀ u ∈ log.transactions, ∀ f ∈ u.inserted, e.sequence ≤ f.sequence))
  | .lockJob _ | .insertAttemptEvent .. | .insertJobEvent .. | .checkJob _ | .rollback _
  | .allocate | .listJobEvents _ => isTrue trivial

variable {jobId : JobId} {log t : EventLog}

theorem Change.refl (log : EventLog) : Change jobId log log :=
  .opened rfl rfl rfl le_rfl fun _ h => h

theorem close_change (id : Nat) : Change jobId log (log.close id) :=
  .opened rfl rfl rfl le_rfl fun _ h => (pending_close h).1

theorem allocate_change : Change jobId log log.allocate :=
  .opened rfl rfl rfl (Nat.le_succ _) fun _ h => h

theorem lockJob_change (id : Nat) : Change jobId log (log.lockJob id) := by
  unfold lockJob
  split
  · refine .opened rfl rfl rfl le_rfl fun p h => ?_
    rcases pending_start h with h | ⟨h,-⟩
    · exact h
    · cases h
  · exact .refl log

theorem checkJob_change (id : Nat) : Change jobId log (log.checkJob id) := by
  unfold checkJob
  split
  · refine .opened rfl rfl rfl le_rfl fun p h => ?_
    obtain ⟨u,hu,hrow,hid⟩ := mem_pending.mp h
    obtain ⟨t,ht,rfl⟩ := mem_updateWhere.mp hu
    refine mem_pending.mpr ⟨t,ht,?_,?_⟩
    · split at hrow <;> exact hrow
    · split at hid <;> exact hid
  · exact .refl log

theorem insertJobEvent_change (id : Nat) (kind : String) (payload : Json.Value) :
    Change jobId log (log.insertJobEvent jobId id kind payload) := by
  unfold insertJobEvent
  split
  · exact .refl log
  · split
    · refine .inserted (id, jobEventRow ⟨jobId,kind,payload⟩ log.nextSequence)
        rfl rfl rfl rfl rfl rfl fun q h => ?_
      rcases pending_start h with h | ⟨hrow,hid⟩
      · exact .inl h
      · exact .inr (Prod.ext hid.symm (Option.some.inj hrow).symm)
    · exact .refl log

theorem insertAttemptEvent_change (id : Nat) (operationId : OperationId) (attemptId : AttemptId)
    (event : NewAttemptEvent) :
    Change jobId log (log.insertAttemptEvent jobId id operationId attemptId event) := by
  unfold insertAttemptEvent
  split
  · split
    · exact close_change id
    · split
      · refine .inserted (id, attemptEventRow jobId operationId attemptId event log.nextSequence)
          rfl rfl rfl rfl rfl rfl fun q h => ?_
        rcases pending_start h with h | ⟨hrow,hid⟩
        · exact .inl (pending_close h).1
        · exact .inr (Prod.ext hid.symm (Option.some.inj hrow).symm)
      · split
        · exact allocate_change
        · exact .opened rfl rfl rfl (Nat.le_succ _) fun _ h => (pending_close h).1
  · exact .refl log

theorem commit_change (ordered : log.InCommitOrder (.commit id)) :
    Change jobId log (log.commit id) := by
  unfold commit
  split
  · rename_i tid lock inserted found
    obtain ⟨member,rfl⟩ := find_mem found
    cases inserted with
    | none =>
      exact .opened (append_nil _) rfl rfl le_rfl fun _ h => (pending_close h).1
    | some e =>
      refine .committed (tid, e) (mem_pending.mpr ⟨_,member,rfl,rfl⟩) rfl rfl rfl rfl
        (fun _ h => pending_close h) fun q h => ?_
      obtain ⟨u,hu,hrow,-⟩ := mem_pending.mp h
      exact ordered _ member rfl e rfl u hu q.2 hrow
  · exact .refl log

theorem step_change {input : EventStep} (ordered : log.InCommitOrder input) :
    Change jobId log (log.step jobId input) := by
  cases input with
  | lockJob id => exact lockJob_change id
  | insertAttemptEvent id operationId attemptId event =>
    exact insertAttemptEvent_change id operationId attemptId event
  | insertJobEvent id kind payload => exact insertJobEvent_change id kind payload
  | checkJob id => exact checkJob_change id
  | commit id => exact commit_change ordered
  | rollback id => exact close_change id
  | allocate => exact allocate_change
  | listJobEvents limit =>
    change Change jobId log (log.listJobEvents jobId limit)
    unfold listJobEvents
    split
    · exact .read limit
    · exact .refl log

structure Delivered (log : EventLog) (rest : List JobEventRow) : Prop where
  split : log.committed = log.received ++ rest
  passed : ∀ e ∈ log.received, e.sequence ≤ log.cursor
  ahead : ∀ e ∈ rest, log.cursor < e.sequence

structure Ordered (jobId : JobId) (log : EventLog) : Prop where
  job : ∀ e ∈ log.committed, e.jobId = jobId
  increasing : log.committed.Pairwise (fun a b => a.sequence < b.sequence)
  allocated : ∀ e ∈ log.committed, e.sequence < log.nextSequence
  cursor : log.cursor < log.nextSequence
  waitingJob : ∀ p ∈ log.pending, p.2.jobId = jobId
  waiting : ∀ p ∈ log.pending, p.2.sequence < log.nextSequence
  behind : ∀ p ∈ log.pending, log.cursor < p.2.sequence
  after : ∀ p ∈ log.pending, ∀ e ∈ log.committed, e.sequence < p.2.sequence
  distinct : ∀ p ∈ log.pending, ∀ q ∈ log.pending, p.2.sequence = q.2.sequence → p.1 = q.1
  delivered : ∃ rest, log.Delivered rest

theorem Ordered.init : Ordered jobId init where
  job := by simp [EventLog.init]
  increasing := List.Pairwise.nil
  allocated := by simp [EventLog.init]
  cursor := by simp [EventLog.init]
  waitingJob := by simp [EventLog.init,pending]
  waiting := by simp [EventLog.init,pending]
  behind := by simp [EventLog.init,pending]
  after := by simp [EventLog.init,pending]
  distinct := by simp [EventLog.init,pending]
  delivered := ⟨[],rfl,by simp [EventLog.init],by simp⟩

theorem eventPage_delivered {limit : Nat} (h : log.Ordered jobId) (delivered : log.Delivered rest) :
    eventPage jobId log.cursor limit log.committed =
      ⟨rest.take limit, ((rest.take limit).getLast?.map (·.sequence)).getD log.cursor⟩ := by
  have selected : log.committed.filter (fun e => e.jobId = jobId ∧ log.cursor < e.sequence) =
      rest := by
    have read : log.received.filter (fun e => e.jobId = jobId ∧ log.cursor < e.sequence) = [] :=
      filter_eq_nil_iff.mpr fun e he => by
        simp [Nat.not_lt.mpr (delivered.passed e he)]
    have unread : rest.filter (fun e => e.jobId = jobId ∧ log.cursor < e.sequence) = rest :=
      filter_eq_self.mpr fun e he => by
        have job := h.job e (delivered.split ▸ mem_append_right _ he)
        simp [job,delivered.ahead e he]
    rw [delivered.split,filter_append,read,unread,nil_append]
  have sorted : rest.Pairwise (fun a b => a.sequence ≤ b.sequence) := by
    have increasing := h.increasing
    rw [delivered.split] at increasing
    exact (pairwise_append.mp increasing).2.1.imp fun h => h.le
  simp only [eventPage,selected,sorted.insertionSort_eq]

theorem nextCursor_split {cursor : Nat}
    (increasing : (page ++ rest).Pairwise (fun a b => a.sequence < b.sequence))
    (ahead : ∀ e ∈ page ++ rest, cursor < e.sequence) :
    cursor ≤ (page.getLast?.map (·.sequence)).getD cursor ∧
      (∀ e ∈ page, e.sequence ≤ (page.getLast?.map (·.sequence)).getD cursor) ∧
      ∀ e ∈ rest, (page.getLast?.map (·.sequence)).getD cursor < e.sequence := by
  obtain ⟨paged,-,across⟩ := pairwise_append.mp increasing
  rcases eq_nil_or_concat page with rfl | ⟨front,last,rfl⟩
  · exact ⟨le_rfl,by simp,ahead⟩
  · simp only [concat_eq_append,getLast?_append,getLast?_singleton,
      Option.some_or,Option.map_some,Option.getD_some] at *
    refine ⟨(ahead last (by simp)).le,fun e he => ?_,fun e he => across last (by simp) e he⟩
    rcases mem_append.mp he with he | he
    · exact ((pairwise_append.mp paged).2.2 e he last (by simp)).le
    · cases mem_singleton.mp he
      exact le_rfl

theorem nextCursor_lt {cursor bound : Nat} (start : cursor < bound)
    (below : ∀ e ∈ page, e.sequence < bound) :
    (page.getLast?.map (·.sequence)).getD cursor < bound := by
  cases last : page.getLast? with
  | none => exact start
  | some e => exact below e (mem_of_getLast? last)

structure Beyond (start log : EventLog) : Prop where
  allocated : start.cursor < log.nextSequence
  pending : ∀ p ∈ log.pending, start.cursor < p.2.sequence
  committed : NeverPassed start log

section Ordering

variable (h : log.Ordered jobId)

include h

theorem Ordered.opened (committed : t.committed = log.committed) (cursor : t.cursor = log.cursor)
    (received : t.received = log.received) (allocated : log.nextSequence ≤ t.nextSequence)
    (pending : ∀ p ∈ t.pending, p ∈ log.pending) : t.Ordered jobId where
  job := committed ▸ h.job
  increasing := committed ▸ h.increasing
  allocated e he := (h.allocated e (committed ▸ he)).trans_le allocated
  cursor := cursor ▸ h.cursor.trans_le allocated
  waitingJob p hp := h.waitingJob p (pending p hp)
  waiting p hp := (h.waiting p (pending p hp)).trans_le allocated
  behind p hp := cursor ▸ h.behind p (pending p hp)
  after p hp := committed ▸ h.after p (pending p hp)
  distinct p hp q hq := h.distinct p (pending p hp) q (pending q hq)
  delivered := by
    obtain ⟨rest,split,passed,ahead⟩ := h.delivered
    exact ⟨rest,by rw [committed,received,split],by rw [received,cursor]; exact passed,
      by rw [cursor]; exact ahead⟩

theorem Ordered.inserted (committed : t.committed = log.committed) (cursor : t.cursor = log.cursor)
    (received : t.received = log.received) (allocated : t.nextSequence = log.nextSequence + 1)
    (sequence : p.2.sequence = log.nextSequence) (job : p.2.jobId = jobId)
    (pending : ∀ q ∈ t.pending, q ∈ log.pending ∨ q = p) :
    t.Ordered jobId where
  job := committed ▸ h.job
  increasing := committed ▸ h.increasing
  allocated e he := by
    have := h.allocated e (committed ▸ he)
    omega
  cursor := by
    have := h.cursor
    omega
  waitingJob q hq := by
    rcases pending q hq with hq | rfl
    · exact h.waitingJob q hq
    · exact job
  waiting q hq := by
    rcases pending q hq with hq | rfl
    · have := h.waiting q hq
      omega
    · omega
  behind q hq := by
    rcases pending q hq with hq | rfl
    · exact cursor ▸ h.behind q hq
    · rw [cursor,sequence]
      exact h.cursor
  after q hq e he := by
    rw [committed] at he
    rcases pending q hq with hq | rfl
    · exact h.after q hq e he
    · exact sequence ▸ h.allocated e he
  distinct q hq r hr same := by
    rcases pending q hq with hq | rfl <;> rcases pending r hr with hr | rfl
    · exact h.distinct q hq r hr same
    · have := h.waiting q hq
      omega
    · have := h.waiting r hr
      omega
    · rfl
  delivered := by
    obtain ⟨rest,split,passed,ahead⟩ := h.delivered
    exact ⟨rest,by rw [committed,received,split],by rw [received,cursor]; exact passed,
      by rw [cursor]; exact ahead⟩

theorem Ordered.committed (found : p ∈ log.pending)
    (committed : t.committed = log.committed ++ [p.2]) (cursor : t.cursor = log.cursor)
    (received : t.received = log.received) (allocated : t.nextSequence = log.nextSequence)
    (pending : ∀ q ∈ t.pending, q ∈ log.pending ∧ q.1 ≠ p.1)
    (first : ∀ q ∈ log.pending, p.2.sequence ≤ q.2.sequence) : t.Ordered jobId where
  job e he := by
    rcases mem_append.mp (committed ▸ he) with he | he
    · exact h.job e he
    · exact mem_singleton.mp he ▸ h.waitingJob p found
  increasing := by
    rw [committed]
    refine pairwise_append.mpr ⟨h.increasing,pairwise_singleton _ _,?_⟩
    intro e he f hf
    exact mem_singleton.mp hf ▸ h.after p found e he
  allocated e he := by
    rw [allocated]
    rcases mem_append.mp (committed ▸ he) with he | he
    · exact h.allocated e he
    · exact mem_singleton.mp he ▸ h.waiting p found
  cursor := by
    rw [cursor,allocated]
    exact h.cursor
  waitingJob q hq := h.waitingJob q (pending q hq).1
  waiting q hq := allocated ▸ h.waiting q (pending q hq).1
  behind q hq := cursor ▸ h.behind q (pending q hq).1
  after q hq e he := by
    obtain ⟨hq,other⟩ := pending q hq
    rcases mem_append.mp (committed ▸ he) with he | he
    · exact h.after q hq e he
    · cases mem_singleton.mp he
      exact (first q hq).lt_of_ne fun same => other (h.distinct q hq p found same.symm)
  distinct q hq r hr := h.distinct q (pending q hq).1 r (pending r hr).1
  delivered := by
    obtain ⟨rest,split,passed,ahead⟩ := h.delivered
    refine ⟨rest ++ [p.2],by rw [committed,received,split,append_assoc],
      by rw [received,cursor]; exact passed,fun e he => ?_⟩
    rw [cursor]
    rcases mem_append.mp he with he | he
    · exact ahead e he
    · exact mem_singleton.mp he ▸ h.behind p found

theorem Ordered.read (limit : Nat) :
    Ordered jobId
      { log with
        cursor := (eventPage jobId log.cursor limit log.committed).nextCursor
        received := log.received ++ (eventPage jobId log.cursor limit log.committed).events } := by
  obtain ⟨rest,delivered⟩ := h.delivered
  rw [eventPage_delivered h delivered]
  have unread : ∀ e ∈ rest, e ∈ log.committed := fun e he => by
    rw [delivered.split]
    exact mem_append_right _ he
  have page : ∀ e ∈ rest.take limit, e ∈ log.committed := fun e he =>
    unread e (mem_of_mem_take he)
  have increasing : (rest.take limit ++ rest.drop limit).Pairwise
      (fun a b => a.sequence < b.sequence) := by
    have increasing := h.increasing
    rw [delivered.split] at increasing
    rw [take_append_drop]
    exact (pairwise_append.mp increasing).2.1
  obtain ⟨advance,passed,ahead⟩ := nextCursor_split increasing
    (by rw [take_append_drop]; exact delivered.ahead)
  exact {
    job := h.job
    increasing := h.increasing
    allocated := h.allocated
    cursor := nextCursor_lt h.cursor fun e he => h.allocated e (page e he)
    waitingJob := h.waitingJob
    waiting := h.waiting
    behind := fun p hp => nextCursor_lt (h.behind p hp) fun e he => h.after p hp e (page e he)
    after := h.after
    distinct := h.distinct
    delivered := by
      refine ⟨rest.drop limit,?_,fun e he => ?_,ahead⟩
      · rw [append_assoc,take_append_drop]
        exact delivered.split
      · rcases mem_append.mp he with he | he
        · exact (delivered.passed e he).trans advance
        · exact passed e he }

theorem Ordered.change (change : Change jobId log t) :
    t.Ordered jobId := by
  cases change with
  | opened committed cursor received allocated pending =>
    exact h.opened committed cursor received allocated pending
  | inserted p committed cursor received allocated sequence job pending =>
    exact h.inserted committed cursor received allocated sequence job pending
  | committed p found committed cursor received allocated pending first =>
    exact h.committed found committed cursor received allocated pending first
  | read limit => exact h.read limit

theorem Ordered.complete : log.Complete jobId := by
  obtain ⟨rest,delivered⟩ := h.delivered
  refine ⟨?_,fun e he => ?_,fun drained e he => ?_⟩
  · have increasing := h.increasing
    rw [delivered.split] at increasing
    exact (pairwise_append.mp increasing).1
  · rw [delivered.split]
    exact mem_append_left _ he
  · unfold Drained at drained
    rw [eventPage_delivered h delivered] at drained
    have empty : rest = [] := by
      rcases take_eq_nil_iff.mp drained with zero | empty
      · cases zero
      · exact empty
    rwa [delivered.split,empty,append_nil] at he

theorem Ordered.beyond : Beyond log log :=
  ⟨h.cursor,h.behind,fun _ he absent => absurd he absent⟩

end Ordering

theorem Beyond.change {start : EventLog} (h : Beyond start log) (change : Change jobId log t) :
    Beyond start t := by
  cases change with
  | opened committed _ _ allocated pending =>
    refine ⟨h.allocated.trans_le allocated,fun p hp => h.pending p (pending p hp),?_⟩
    rw [NeverPassed,committed]
    exact h.committed
  | inserted p committed _ _ allocated sequence _ pending =>
    refine ⟨by have := h.allocated; omega,fun q hq => ?_,?_⟩
    · rcases pending q hq with hq | rfl
      · exact h.pending q hq
      · exact sequence ▸ h.allocated
    · rw [NeverPassed,committed]
      exact h.committed
  | committed p found committed _ _ allocated pending _ =>
    refine ⟨allocated ▸ h.allocated,fun q hq => h.pending q (pending q hq).1,?_⟩
    intro e he absent
    rcases mem_append.mp (committed ▸ he) with he | he
    · exact h.committed e he absent
    · exact mem_singleton.mp he ▸ h.pending p found
  | read limit => exact ⟨h.allocated,h.pending,h.committed⟩

theorem cursor_completeness (jobId : JobId) (steps later : List EventStep)
    (ordered : Machine.Along (step jobId) InCommitOrder init (steps ++ later)) :
    (run jobId steps).Complete jobId ∧
      (run jobId steps).NeverPassed (run jobId (steps ++ later)) := by
  obtain ⟨before,after⟩ := Machine.along_append.mp ordered
  have reached : (run jobId steps).Ordered jobId :=
    @Machine.along_invariant _ _ (step jobId) init InCommitOrder (Ordered jobId)
      (fun _ _ allowed h => h.change (step_change allowed)) .init _ before
  refine ⟨reached.complete,?_⟩
  have beyond : Beyond (run jobId steps) (run jobId (steps ++ later)) := by
    simp only [run,Machine.run_append]
    exact @Machine.along_invariant _ _ (step jobId) _ InCommitOrder (Beyond (run jobId steps))
      (fun _ _ allowed h => h.change (step_change allowed)) reached.beyond _ after
  exact beyond.committed

def progressEvent : NewAttemptEvent := ⟨"stage.progress", .null, some "progress"⟩

theorem cursor_completeness_overlapping :
    Machine.Along (step "job") InCommitOrder init
        ([.lockJob 1, .insertAttemptEvent 1 "plan" "first" progressEvent,
            .insertJobEvent 2 "artifact.warning" .null, .commit 1, .listJobEvents 10] ++
          [.checkJob 2, .commit 2, .listJobEvents 10]) ∧
      (run "job" [.lockJob 1, .insertAttemptEvent 1 "plan" "first" progressEvent,
          .insertJobEvent 2 "artifact.warning" .null, .commit 1, .listJobEvents 10]).Complete
        "job" :=
  ⟨by decide,(cursor_completeness "job" _
    [.checkJob 2,.commit 2,.listJobEvents 10] (by decide)).1⟩

theorem cursor_passes_late_job_event :
    ¬ ((run "job" [.lockJob 1, .insertJobEvent 2 "artifact.warning" .null,
          .insertAttemptEvent 1 "plan" "first" progressEvent, .commit 1, .listJobEvents 10,
          .checkJob 2, .commit 2, .listJobEvents 10]).Complete "job") ∧
      ¬ (run "job" [.lockJob 1, .insertJobEvent 2 "artifact.warning" .null,
          .insertAttemptEvent 1 "plan" "first" progressEvent, .commit 1,
          .listJobEvents 10]).NeverPassed
        (run "job" [.lockJob 1, .insertJobEvent 2 "artifact.warning" .null,
          .insertAttemptEvent 1 "plan" "first" progressEvent, .commit 1, .listJobEvents 10,
          .checkJob 2, .commit 2]) := by
  constructor
  · intro complete
    have missed := complete.drained (by decide)
    revert missed
    decide
  · unfold NeverPassed
    decide

end EventLog

end Coordinator
