import Factory.Runtime.ReviewRollback
import Factory.Runtime.StageLoop

namespace Extension

open Result

theorem recordReview_review (report : FactoryReviewReport) (state : FactoryState) :
    ∃ generation, (state.recordReview report).review =
      some { report with generation := generation } := by
  unfold FactoryState.recordReview
  split
  · exact ⟨_,rfl⟩
  · exact ⟨_,rfl⟩

variable {state next : FactoryState}

theorem review_report {provenance : ReviewProvenance} {args : ReviewArgs}
    (h : review provenance args state = .ok next) :
    ∃ report, next.review = some report ∧ report.recordedThreadId = provenance.threadId ∧
      report.recordedTurnId = provenance.turnId := by
  simp only [review,bind_ok,pure_ok] at h
  obtain ⟨_,_,rfl⟩ := h
  obtain ⟨generation,recorded⟩ := recordReview_review _ state
  exact ⟨_,recorded,rfl,rfl⟩

theorem remediation_review {dispositions : List FactoryRemediationRecord}
    (h : remediation dispositions state = .ok next) :
    next.review = state.review := by
  simp only [remediation,bind_ok,pure_ok] at h
  obtain ⟨_,_,rfl⟩ := h
  rfl

theorem applyActivity_review (activity : FactorySubagentActivity) (archive : Option Nat)
    (state : FactoryState) : (applyActivity activity archive state).review = state.review := by
  unfold applyActivity
  split <;> rfl

end Extension

namespace Runtime

open Extension

def Vouched (turns : List TurnRef) (review : Option FactoryReviewReport) : Prop :=
  ∀ report ∈ review, ∃ turn ∈ turns, recordedBy turn report

structure Accounted (trusted clean : List TurnRef) (state : FactoryState) : Prop where
  review : Vouched trusted state.review
  recovery : ∀ baseline ∈ state.reviewRecovery, Vouched clean baseline.review

structure AccountedThread (trusted clean : List TurnRef) (thread : FactoryThreadState) : Prop where
  durable : Accounted trusted clean thread.load
  cached : ∀ state ∈ thread.cached, Accounted trusted clean state

variable {trusted clean more : List TurnRef} {state : FactoryState} {thread : FactoryThreadState}

theorem recordedBy_unique {left right : TurnRef} {report : FactoryReviewReport}
    (hl : recordedBy left report) (hr : recordedBy right report) : left = right := by
  have threads := Option.some.inj (hl.1.symm.trans hr.1)
  have turns := Option.some.inj (hl.2.symm.trans hr.2)
  cases left
  cases right
  cases threads
  cases turns
  rfl

theorem Vouched.mono {review : Option FactoryReviewReport} (h : Vouched trusted review)
    (sub : trusted ⊆ more) : Vouched more review := by
  intro report hit
  obtain ⟨turn,known,recorded⟩ := h report hit
  exact ⟨turn,sub known,recorded⟩

section Accounting

variable (h : Accounted trusted clean state)

include h

theorem Accounted.mono {trusted' clean' : List TurnRef} (trusts : trusted ⊆ trusted')
    (cleans : clean ⊆ clean') :
    Accounted trusted' clean' state :=
  ⟨h.review.mono trusts,fun baseline hit => (h.recovery baseline hit).mono cleans⟩

theorem Accounted.of_same {next : FactoryState} (review : next.review = state.review)
    (recovery : next.reviewRecovery = state.reviewRecovery) : Accounted trusted clean next :=
  ⟨review ▸ h.review,recovery ▸ h.recovery⟩

theorem Accounted.bump (revision : Nat) :
    Accounted trusted clean { state with revision := revision } :=
  ⟨h.review,h.recovery⟩

theorem Accounted.rollback (sub : clean ⊆ trusted) :
    Accounted trusted clean state.rollbackReviewRecovery.2 := by
  unfold FactoryState.rollbackReviewRecovery
  split
  · exact h
  · next baseline found =>
      exact ⟨(h.recovery baseline found).mono sub,fun _ hit => by cases hit⟩

theorem Accounted.commit :
    Accounted trusted clean state.commitReviewRecovery.2 :=
  ⟨h.review,fun _ hit => by cases hit⟩

theorem rollbackReviewRecovery_vouched
    (kept : state.reviewRecovery.isSome ∨ Vouched clean state.review) :
    Vouched clean state.rollbackReviewRecovery.2.review := by
  unfold FactoryState.rollbackReviewRecovery
  split
  · next lost =>
      rw [lost] at kept
      rcases kept with impossible | vouched
      · cases impossible
      · exact vouched
  · next baseline found => exact h.recovery baseline found

end Accounting

theorem rollbackDetachedReview_eq (thread : FactoryThreadState) :
    rollbackDetachedReview thread =
      if thread.load.rollbackReviewRecovery.1 then
        thread.save thread.load.rollbackReviewRecovery.2
      else thread := rfl

theorem commitDetachedReview_eq (thread : FactoryThreadState) :
    commitDetachedReview thread =
      if thread.load.commitReviewRecovery.1 then thread.save thread.load.commitReviewRecovery.2
      else thread := rfl

namespace AccountedThread

section Keeping

variable (h : AccountedThread trusted clean thread)

include h

theorem current :
    Accounted trusted clean thread.current := by
  unfold FactoryThreadState.current
  cases found : thread.cached with
  | none => exact h.durable
  | some state => exact h.cached state found

theorem mono {trusted' clean' : List TurnRef} (trusts : trusted ⊆ trusted')
    (cleans : clean ⊆ clean') :
    AccountedThread trusted' clean' thread :=
  ⟨h.durable.mono trusts cleans,fun state hit => (h.cached state hit).mono trusts cleans⟩

theorem forget :
    AccountedThread trusted clean { thread with cached := none } :=
  ⟨h.durable,fun _ hit => by cases hit⟩

theorem loadIfNeeded :
    AccountedThread trusted clean thread.loadIfNeeded := by
  refine ⟨h.durable,fun state hit => ?_⟩
  cases hit
  exact h.current

theorem save (next : Accounted trusted clean state) :
    AccountedThread trusted clean (thread.save state) :=
  ⟨next,h.cached⟩

theorem update {mutation : FactoryState → Except String FactoryState}
    (keeps : ∀ state next, mutation state = .ok next → Accounted trusted clean state →
      Accounted trusted clean next) :
    AccountedThread trusted clean (thread.update mutation) := by
  unfold FactoryThreadState.update
  split
  · exact h.loadIfNeeded
  · next next accepted =>
      have next := (keeps thread.current next accepted h.current).bump
      refine ⟨next _,fun state hit => ?_⟩
      cases hit
      exact next _

theorem upsertActivity (activity : FactorySubagentActivity) (archive : Option Nat) :
    AccountedThread trusted clean (thread.upsertActivity activity archive) := by
  refine h.update fun state next accepted known => ?_
  cases accepted
  exact known.of_same (applyActivity_review activity archive state)
    (applyActivity_recovery activity archive state)

theorem remediate (dispositions : List FactoryRemediationRecord) :
    AccountedThread trusted clean (thread.call (.remediation dispositions)) :=
  h.update fun _ _ accepted known =>
    known.of_same (remediation_review accepted)
      (@FactoryToolCall.mutate_recovery (.remediation dispositions) _ _ accepted)

theorem review {turn : TurnRef} (known : turn ∈ trusted) (context : DetachedReviewThreadContext)
    (args : ReviewArgs) :
    AccountedThread trusted clean
      (thread.call (.review (detachedProvenance turn.turnId turn.threadId context) args)) := by
  refine h.update fun state next accepted before => ⟨fun report hit => ?_,?_⟩
  · obtain ⟨recorded,found,threadId,turnId⟩ := review_report accepted
    cases found.symm.trans hit
    exact ⟨turn,known,threadId,turnId⟩
  · rw [FactoryToolCall.mutate_recovery accepted]
    exact before.recovery

theorem rollback (sub : clean ⊆ trusted) :
    AccountedThread trusted clean (rollbackDetachedReview thread) := by
  rw [rollbackDetachedReview_eq]
  split
  · exact h.save (h.durable.rollback sub)
  · exact h

theorem commit :
    AccountedThread trusted clean (commitDetachedReview thread) := by
  rw [commitDetachedReview_eq]
  split
  · exact h.save h.durable.commit
  · exact h

theorem prepare (settled : trusted ⊆ clean) (sub : clean ⊆ trusted) :
    AccountedThread trusted clean (thread.save thread.load.prepareReviewRecovery) := by
  have rolled := h.durable.rollback sub
  refine h.save ⟨rolled.review,fun baseline hit => ?_⟩
  cases hit
  exact rolled.review.mono settled

end Keeping

end AccountedThread

theorem rollbackDetachedReview_load (thread : FactoryThreadState) :
    (rollbackDetachedReview thread).load = thread.load.rollbackReviewRecovery.2 := by
  unfold rollbackDetachedReview updateReviewRecovery FactoryState.rollbackReviewRecovery
  cases thread.load.reviewRecovery <;> rfl

theorem rollbackDetachedReview_cached (thread : FactoryThreadState) :
    (rollbackDetachedReview thread).cached = thread.cached :=
  updateReviewRecovery_cached false thread

theorem commitDetachedReview_review (thread : FactoryThreadState) :
    (commitDetachedReview thread).load.review = thread.load.review := by
  rw [commitDetachedReview_eq]
  split <;> rfl

end Runtime
