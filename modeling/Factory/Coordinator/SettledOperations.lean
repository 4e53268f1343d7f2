import Factory.Coordinator.JobLifecycle
import Factory.Coordinator.OutputStability

namespace Coordinator

open Result Table List

structure Advances (rows later : List OperationRow) (f : OperationRow → OperationRow)
    (added : List OperationRow) : Prop where
  rows_eq : later = rows.map f ++ added
  owner : ∀ o, (f o).jobId = o.jobId
  kept : ∀ o ∈ rows, o.status = .succeeded → f o = o
  unsettled : ∀ o ∈ added, o.status ≠ .succeeded

namespace Advances

variable {rows : List OperationRow}

theorem refl (rows : List OperationRow) : Advances rows rows id [] where
  rows_eq := by rw [map_id,append_nil]
  owner _ := rfl
  kept _ _ _ := rfl
  unsettled _ listed := absurd listed not_mem_nil

theorem updated {p : OperationRow → Bool} {f : OperationRow → OperationRow}
    (owner : ∀ o, (f o).jobId = o.jobId)
    (unfinished : ∀ o ∈ rows, p o = true → o.status ≠ .succeeded) :
    Advances rows (updateWhere p f rows) (fun o => if p o then f o else o) [] where
  rows_eq := (append_nil _).symm
  owner o := by
    split
    · exact owner o
    · rfl
  kept o listed succeeded := if_neg fun hit => unfinished o listed hit succeeded
  unsettled _ listed := absurd listed not_mem_nil

theorem appended {added : List OperationRow} (unsettled : ∀ o ∈ added, o.status ≠ .succeeded) :
    Advances rows (rows ++ added) id added where
  rows_eq := by rw [map_id]
  owner _ := rfl
  kept _ _ _ := rfl
  unsettled := unsettled

end Advances

theorem JobLife.Remaining.not_succeeded {state : JobState} {rest : List OperationLife}
    (h : JobLife.Remaining state rest) : ∀ x ∈ rest, x.state ≠ .succeeded := by
  cases rest with
  | nil => exact fun _ listed => absurd listed not_mem_nil
  | cons o after =>
    intro x listed
    rcases mem_cons.mp listed with rfl | later
    · exact h.head_not_succeeded
    · rcases h.tail x later with untouched | dropped
      · rw [untouched.state]
        decide
      · rw [dropped.state]
        decide

namespace Store

variable {now : Timestamp} {s t : Store} {command : Command} {response : Response}
  {fence : AttemptFence} {context : AttemptContextRow} {jobId : JobId}

theorem operationRows_unsettled {newId : Nat → OperationId} {operations : List OperationDefinition}
    {ordinal : Nat} : ∀ o ∈ operationRows now jobId newId operations ordinal,
      o.status ≠ .succeeded := by
  induction operations generalizing ordinal with
  | nil => exact fun _ listed => absurd listed not_mem_nil
  | cons operation rest ih =>
    intro o listed
    rcases mem_cons.mp listed with rfl | later
    · exact nofun
    · exact ih o later

theorem Sound.leased_unfinished (sound : s.Sound)
    (lease : s.attemptContext now fence = some context)
    {o : OperationRow} (known : o ∈ s.operations) (same : o.operationId = context.operationId) :
    o.status ≠ .succeeded := by
  intro succeeded
  obtain ⟨a,p,j,rows⟩ := leaseRows lease
  obtain ⟨job,hjob,owner⟩ := sound.wellFormed.operation_job known
  have phase := ((sound.valid job hjob).phase
    (operationLife_mem (mem_operationsOf.mpr ⟨known,owner.symm⟩))).1
  obtain ⟨k,done⟩ := phase.done_of_succeeded succeeded
  refine done.not_running (mem_map.mpr ⟨a,mem_attemptsOf.mpr ⟨rows.attempt_mem,?_⟩,
    rows.running⟩)
  rw [rows.operation_eq,same,rows.context_eq]

theorem settle_advances (sound : s.Sound) (lease : s.attemptContext now fence = some context)
    (settlement : AttemptSettlement) :
    ∃ f added, Advances s.operations (s.settle fence context settlement).operations f added := by
  have unfinished : ∀ o ∈ s.operations, decide (o.operationId = context.operationId) = true →
      o.status ≠ .succeeded := fun o known same =>
    sound.leased_unfinished lease known (of_decide_eq_true same)
  cases settlement with
  | succeeded =>
    simp only [settle,settleSuccess]
    split
    · exact ⟨_,_,.updated (fun _ => rfl) unfinished⟩
    · exact ⟨_,_,.updated (fun _ => rfl) unfinished⟩
  | failed failure =>
    simp only [settle,settleFailure]
    split
    · exact ⟨_,_,.updated (fun _ => rfl) unfinished⟩
    · exact ⟨_,_,.updated (fun _ => rfl) unfinished⟩

theorem cancelUnfinished_advances (jobId : JobId) :
    ∃ f added, Advances s.operations (s.cancelUnfinishedOperations jobId).operations f added := by
  refine ⟨_,_,.updated (fun _ => rfl) fun o _ hit => ?_⟩
  obtain ⟨-,open_operation⟩ := of_decide_eq_true hit
  rcases open_operation with ready | running | waiting
  · rw [ready]
    exact nofun
  · rw [running]
    exact nofun
  · rw [waiting]
    exact nofun

theorem Transition.advances {continued : Option JobId} {fences : List AttemptFence}
    (sound : s.Sound) (h : Transition now s continued fences t) :
    ∃ f added, Advances s.operations t.operations f added := by
  cases h with
  | idle | leased => exact ⟨_,_,.refl _⟩
  | environment _ change =>
    obtain ⟨_,operations,_⟩ := change.tables
    rw [operations]
    exact ⟨_,_,.refl _⟩
  | created _ _ _ _ result =>
    obtain ⟨_,_,_,_,rfl⟩ := createJob_ok result
    exact ⟨_,_,.appended operationRows_unsettled⟩
  | continued _ _ _ _ result =>
    obtain ⟨_,_,_,_,_,_,_,_,_,_,_,rfl⟩ := continueJob_ok result
    exact ⟨_,_,.appended operationRows_unsettled⟩
  | cancelled _ _ result =>
    obtain ⟨_,_,⟨_,rfl⟩ | ⟨_,_,rfl⟩ | ⟨_,_,rfl⟩⟩ := cancelJob_ok result
    · exact ⟨_,_,.refl _⟩
    · exact ⟨_,_,.refl _⟩
    · exact cancelUnfinished_advances _
  | acknowledged _ _ result =>
    obtain ⟨_,_,_,_,rfl⟩ := acknowledgeJobCancellation_ok result
    exact cancelUnfinished_advances _
  | settled fence context settlement lease _ => exact settle_advances sound lease settlement
  | claimed _ _ job operation _ _ _ recoverable _ claim =>
    have unfinished : ∀ o ∈ s.operations,
        decide (o.operationId = operation.operationId) = true → o.status ≠ .succeeded := by
      intro o known same
      obtain rfl := sound.wellFormed.operation_eq known
        recoverable.operation_mem
        (of_decide_eq_true same)
      rcases recoverable.eligible with ⟨-,-,ready | waiting⟩ | ⟨running,-⟩
      · rw [ready]
        exact nofun
      · rw [waiting]
        exact nofun
      · rw [running]
        exact nofun
    cases claim with
    | started | reclaimed => exact ⟨_,_,.updated (fun _ => rfl) unfinished⟩

theorem exec_advances (sound : s.Sound) (h : s.exec now command = .ok (response, t)) :
    ∃ f added, Advances s.operations t.operations f added := by
  obtain ⟨middle,transition,_,operations,_⟩ := exec_transition h
  rw [operations]
  exact transition.advances sound

theorem WellFormed.sorted (wf : s.WellFormed) (jobId : JobId) :
    (s.operationsOf jobId).Pairwise (fun left right => left.ordinal ≤ right.ordinal) := by
  have ordered : ((s.operationsOf jobId).map (·.ordinal)).Pairwise (· ≤ ·) := by
    rw [wf.ordinals]
    exact pairwise_lt_range.imp Nat.le_of_lt
  exact pairwise_map.mp ordered

theorem settledOperations_eq (wf : s.WellFormed) (jobId : JobId) :
    settledOperations (s.operationsOf jobId) =
      (s.operationsOf jobId).filter (fun o => o.status = .succeeded) :=
  List.Pairwise.insertionSort_eq ((wf.sorted jobId).sublist filter_sublist)

theorem Sound.settled_split (sound : s.Sound) (jobId : JobId) :
    ∃ done rest, s.operationsOf jobId = done ++ rest ∧ (∀ o ∈ done, o.status = .succeeded) ∧
      ∀ o ∈ rest, o.status ≠ .succeeded := by
  cases listed : s.operationsOf jobId with
  | nil => exact ⟨[],[],rfl,nofun,nofun⟩
  | cons first others =>
    have known : first ∈ s.operationsOf jobId := by
      rw [listed]
      exact mem_cons_self
    obtain ⟨member,owned⟩ := mem_operationsOf.mp known
    obtain ⟨job,hjob,owner⟩ := sound.wellFormed.operation_job member
    obtain ⟨done,rest,split,finished,remaining⟩ := (sound.valid job hjob).split
    have same : s.lives job.jobId = (first :: others).map s.operationLife := by
      rw [lives,owner,owned,listed]
    obtain ⟨before,after,rows,rfl,rfl⟩ := map_eq_append_iff.mp (same.symm.trans split)
    refine ⟨before,after,rows,fun o mem => ?_,fun o mem => ?_⟩
    · obtain ⟨k,closed⟩ := finished _ (mem_map_of_mem mem)
      exact closed.state
    · exact remaining.not_succeeded _ (mem_map_of_mem mem)

variable {added : List OperationRow} {f : OperationRow → OperationRow}

theorem Advances.operationsOf (h : Advances s.operations t.operations f added) (jobId : JobId) :
    t.operationsOf jobId =
      (s.operationsOf jobId).map f ++ added.filter (fun o => o.jobId = jobId) := by
  have owned : (fun o : OperationRow => decide (o.jobId = jobId)) ∘ f =
      fun o => decide (o.jobId = jobId) := by
    funext o
    rw [Function.comp,h.owner]
  rw [Store.operationsOf,h.rows_eq,filter_append,filter_map,owned]
  rfl

theorem settled_prefix (sound : s.Sound) (wf : t.WellFormed)
    (h : Advances s.operations t.operations f added) (jobId : JobId) :
    settledOperations (s.operationsOf jobId) <+: settledOperations (t.operationsOf jobId) := by
  obtain ⟨done,rest,split,succeeded,unsettled⟩ := sound.settled_split jobId
  have kept : done.map f = done := by
    refine (map_congr_left fun o mem => ?_).trans (map_id done)
    have known : o ∈ s.operationsOf jobId := by
      rw [split]
      exact mem_append_left _ mem
    exact h.kept o (mem_operationsOf.mp known).1 (succeeded o mem)
  rw [settledOperations_eq sound.wellFormed,settledOperations_eq wf,Advances.operationsOf h,split,
    map_append,kept,append_assoc,filter_append,filter_append]
  rw [filter_eq_nil_iff.mpr fun o mem status => unsettled o mem (of_decide_eq_true status)]
  rw [append_nil]
  exact prefix_append _ _

end Store

end Coordinator
