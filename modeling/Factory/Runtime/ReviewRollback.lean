import Factory.Extension.ReviewHistory
import Factory.Runtime.StageSession

namespace Extension

theorem applyActivity_recovery (activity : FactorySubagentActivity) (archive : Option Nat)
    (state : FactoryState) :
    (applyActivity activity archive state).reviewRecovery = state.reviewRecovery := by
  unfold applyActivity
  split <;> rfl

namespace FactoryThreadState

variable {thread : FactoryThreadState}

theorem current_of_cached (h : ∀ cached ∈ thread.cached, cached = thread.load) :
    thread.current = thread.load := by
  unfold current
  cases cached : thread.cached with
  | none => rfl
  | some state => exact h state cached

theorem update_recovery {mutation : FactoryState → Except String FactoryState}
    (keeps : ∀ state next, mutation state = .ok next →
      next.reviewRecovery = state.reviewRecovery) :
    (thread.update mutation).load.reviewRecovery = thread.load.reviewRecovery ∨
      (thread.update mutation).load.reviewRecovery = thread.current.reviewRecovery := by
  unfold update
  split
  · exact .inl rfl
  · next next accepted => exact .inr (keeps thread.current next accepted)

theorem update_congr {mutation : FactoryState → Except String FactoryState}
    {other : FactoryThreadState} (same : other.current = thread.current) :
    (thread.update mutation).load = thread.load ∨
      (thread.update mutation).load = (other.update mutation).load := by
  unfold update
  rw [same]
  split
  · exact .inl rfl
  · exact .inr rfl

theorem call_congr {call : FactoryToolCall} {other : FactoryThreadState}
    (same : other.current = thread.current) :
    (thread.call call).load = thread.load ∨
      (thread.call call).load = (other.call call).load := by
  unfold FactoryThreadState.call
  split
  · exact .inl rfl
  · exact update_congr same

theorem update_cached (mutation : FactoryState → Except String FactoryState)
    (fresh : thread.current = thread.load) :
    ∀ cached ∈ (thread.update mutation).cached, cached = (thread.update mutation).load := by
  intro cached hit
  unfold update at hit ⊢
  split at hit
  · exact (Option.some.inj hit).symm.trans fresh
  · exact (Option.some.inj hit).symm

end FactoryThreadState

end Extension

namespace Runtime

open Extension

variable {thread : FactoryThreadState}

theorem updateReviewRecovery_cached (commit : Bool) (thread : FactoryThreadState) :
    (updateReviewRecovery commit thread).2.cached = thread.cached := by
  unfold updateReviewRecovery
  dsimp only
  split <;> split <;> rfl

theorem prepareDetachedReview_cached (captured : Bool) (thread : FactoryThreadState) :
    (prepareDetachedReview captured thread).cached = thread.cached := by
  have kept : (rollbackDetachedReview thread).cached = thread.cached :=
    updateReviewRecovery_cached false thread
  unfold prepareDetachedReview
  dsimp only
  split
  · exact kept
  · exact kept

theorem rollbackDetachedReview_baseline {baseline : FactoryReviewRecoveryBaseline}
    (h : thread.load.reviewRecovery = some baseline) :
    (rollbackDetachedReview thread).load.baseline = baseline := by
  simp only [rollbackDetachedReview,updateReviewRecovery,Bool.false_eq_true,if_false,
    FactoryState.rollbackReviewRecovery,h,if_true]
  rfl

theorem prepareReviewRecovery_baseline (state : FactoryState) :
    state.prepareReviewRecovery.reviewRecovery = some state.prepareReviewRecovery.baseline := rfl

namespace StageSession

structure Consistent (session : StageSession) : Prop where
  current : session.outdated = false → session.Current
  recoverable : ∀ baseline ∈ session.pending,
    session.thread.load.reviewRecovery = some baseline

variable {session : StageSession}

theorem Current.current (h : session.Current) : session.thread.current = session.thread.load :=
  FactoryThreadState.current_of_cached h

theorem start_consistent (stage : FactoryTurnStage) (durable : Option FactoryState) :
    (start stage durable).Consistent := by
  refine ⟨fun _ cached hit => ?_,fun baseline hit => ?_⟩
  · simp [start] at hit
  · simp [start] at hit

theorem Consistent.update (h : session.Consistent) (upToDate : session.outdated = false)
    {mutation : FactoryState → Except String FactoryState}
    (keeps : ∀ state next, mutation state = .ok next →
      next.reviewRecovery = state.reviewRecovery) :
    Consistent { session with thread := session.thread.update mutation } := by
  have fresh := (h.current upToDate).current
  refine ⟨fun _ => FactoryThreadState.update_cached mutation fresh,fun baseline hit => ?_⟩
  have kept := @FactoryThreadState.update_recovery session.thread mutation keeps
  rw [fresh,or_self] at kept
  exact kept.trans (h.recoverable baseline hit)

theorem Consistent.loadIfNeeded (h : session.Consistent) :
    Consistent { session with thread := session.thread.loadIfNeeded } := by
  refine ⟨fun upToDate cached hit => ?_,h.recoverable⟩
  exact (Option.some.inj hit).symm.trans (h.current upToDate).current

theorem Consistent.write (h : session.Consistent) {thread : FactoryThreadState}
    {pending : Option FactoryReviewRecoveryBaseline}
    (cached : thread.cached = session.thread.cached)
    (recoverable : ∀ baseline ∈ pending, thread.load.reviewRecovery = some baseline) :
    (session.write thread pending).Consistent := by
  unfold StageSession.write
  split
  · exact h
  · refine ⟨fun upToDate state hit => ?_,recoverable⟩
    simp only [Bool.or_eq_false_iff,Bool.and_eq_false_iff,decide_eq_false_iff_not,
      not_not] at upToDate
    have hit : session.thread.cached = some state := cached ▸ hit
    rcases upToDate with ⟨before,absent | same⟩
    · rw [hit] at absent
      cases absent
    · have loaded : thread.load = session.thread.load := by
        rw [FactoryThreadState.load,FactoryThreadState.load,same]
      exact (h.current before state hit).trans loaded.symm

variable {input : SessionStep}

theorem Consistent.step (h : session.Consistent) (upToDate : session.UpToDate input) :
    (session.step input).Consistent := by
  cases input with
  | startTurn turn =>
    simp only [StageSession.step]
    split
    · exact ⟨h.current,h.recoverable⟩
    · exact h
  | prompt =>
    simp only [StageSession.step]
    split
    · exact h
    · exact h.loadIfNeeded
  | tool call =>
    simp only [StageSession.step]
    split
    · next allowed =>
        unfold FactoryThreadState.call
        split
        · exact h
        · exact h.update (upToDate allowed) fun _ _ => FactoryToolCall.mutate_recovery
    · exact h
  | activity activity archive =>
    simp only [StageSession.step]
    split
    · exact h
    · next running =>
        refine h.update (upToDate running) fun state next accepted => ?_
        cases accepted
        exact applyActivity_recovery activity archive state
  | endTurn => exact ⟨h.current,h.recoverable⟩
  | prepare captured =>
    refine h.write (prepareDetachedReview_cached captured _) fun baseline hit => ?_
    cases captured with
    | false => cases hit
    | true =>
      cases hit
      exact prepareReviewRecovery_baseline _
  | commit => exact h.write (updateReviewRecovery_cached true _) fun _ hit => by cases hit
  | rollback => exact h.write (updateReviewRecovery_cached false _) fun _ hit => by cases hit

theorem Consistent.faithful (h : session.Consistent) (upToDate : session.UpToDate input) :
    session.Faithful input := by
  cases input with
  | tool call => exact fun allowed => h.current (upToDate allowed)
  | activity activity archive => exact fun running => h.current (upToDate running)
  | rollback =>
    intro idle baseline hit
    have restored := rollbackDetachedReview_baseline (h.recoverable baseline hit)
    simp only [StageSession.step,StageSession.write,idle]
    exact restored
  | startTurn | prompt | endTurn | prepare | commit => trivial

theorem detached_review_rollback (stage : FactoryTurnStage) (durable : Option FactoryState)
    (steps : List SessionStep)
    (upToDate : Machine.Along step UpToDate (start stage durable) steps) :
    Machine.Along step Faithful (start stage durable) steps :=
  @Machine.along_of_invariant _ _ step (start stage durable) UpToDate Consistent Faithful
    (fun _ _ allowed h => h.step allowed) (fun _ _ allowed h => h.faithful allowed)
    (start_consistent stage durable) steps upToDate

def remediatedState : FactoryState :=
  ⟨5, [⟨"unit", "Unit", "Build it", [], .completed, some "built"⟩],
    some ⟨1, some "turn-1", some "review-1", some "parent", some "turn-0", some "review",
      .requestChanges, "needs work", [⟨"finding", .major, "unit", "Bug", "seen", "fix"⟩]⟩,
    [], [], [], none, none⟩

def approval : FactoryToolCall :=
  .review (detachedProvenance "turn-3" "review-2" ⟨"parent", "turn-2"⟩) ⟨.approve, "passes", []⟩

def disposition : FactoryToolCall := .remediation [⟨"finding", .resolved, "fixed", "unit"⟩]

theorem detached_review_rollback_first_turn :
    Machine.Along step UpToDate (start .remediate (some remediatedState))
        [.prepare true, .startTurn .review, .prompt, .tool approval, .endTurn, .rollback] ∧
      Machine.Along step Faithful (start .remediate (some remediatedState))
        [.prepare true, .startTurn .review, .prompt, .tool approval, .endTurn, .rollback] :=
  ⟨by decide,detached_review_rollback .remediate (some remediatedState) _ (by decide)⟩

theorem detached_review_rollback_lost :
    ((start .remediate (some remediatedState)).run
        [.startTurn .parent, .prompt, .tool disposition, .endTurn, .prepare true,
          .startTurn .review, .tool approval, .endTurn]).pending.map (·.review) =
        some remediatedState.review ∧
      ((start .remediate (some remediatedState)).run
        [.startTurn .parent, .prompt, .tool disposition, .endTurn, .prepare true,
          .startTurn .review, .tool approval, .endTurn,
          .rollback]).thread.load.review.map (·.verdict) = some .approve ∧
      ¬ Machine.Along step Faithful (start .remediate (some remediatedState))
        [.startTurn .parent, .prompt, .tool disposition, .endTurn, .prepare true,
          .startTurn .review, .tool approval, .endTurn, .rollback] := by
  decide

end StageSession

end Runtime
