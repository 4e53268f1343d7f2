import Factory.Runtime.StageLoopInvariant

namespace Runtime

open Extension StageLoop

structure AuditedLoop where
  loop : StageLoop
  captured : Option FactoryReviewRecoveryBaseline
  saved : Bool
  deriving DecidableEq

theorem rollbackDetachedReview_recovery (thread : FactoryThreadState) :
    (rollbackDetachedReview thread).load.reviewRecovery = none := by
  rw [rollbackDetachedReview_load]
  unfold FactoryState.rollbackReviewRecovery
  split
  · assumption
  · rfl

theorem rollbackDetachedReview_unprepared {thread : FactoryThreadState}
    (h : thread.load.reviewRecovery = none) :
    (rollbackDetachedReview thread).load = thread.load := by
  rw [rollbackDetachedReview_load,FactoryState.rollbackReviewRecovery,h]

namespace AuditedLoop

def start (previous : StageCheckpoint) (state : FactoryState) : AuditedLoop :=
  ⟨.start previous state, none, false⟩

def restored (s : AuditedLoop) (state : FactoryState) : Bool :=
  s.captured = some state.baseline && state.reviewRecovery.isNone

def step (config : ExecutorConfig) (s : AuditedLoop) (input : LoopStep) : AuditedLoop :=
  let next := s.loop.step config input
  match input, s.loop.point, next.point with
  | .advance, .capture _, .prepare _ => ⟨next, some s.loop.thread.load.baseline, false⟩
  | .advance, .mutated _, _ => ⟨next, s.captured, s.saved || s.restored next.thread.load⟩
  | _, _, _ => { s with loop := next }

def Acknowledged (s : AuditedLoop) : LoopStep → Prop
  | .advance =>
    match s.loop.point with
    | .acknowledge _ => s.loop.worktree.acknowledge ≠ none → s.saved = true
    | _ => True
  | _ => True

def HoldsBaseline (s : AuditedLoop) : Point → Prop
  | .mutated _ => s.saved = true ∨ s.loop.thread.load.reviewRecovery.isSome = true ∨
      s.captured = some s.loop.thread.load.baseline
  | _ => True

def Current (s : AuditedLoop) : LoopStep → Prop
  | .advance => s.HoldsBaseline s.loop.point
  | .tool _ | .activity _ _ => s.loop.turn ≠ none → ∀ cached ∈ s.loop.thread.cached,
      cached.reviewRecovery = none ∨
        cached.reviewRecovery = s.loop.thread.load.reviewRecovery
  | _ => True

instance (s : AuditedLoop) : ∀ input, Decidable (s.Acknowledged input)
  | .advance =>
    match point : s.loop.point with
    | .acknowledge _ => decidable_of_iff (s.loop.worktree.acknowledge ≠ none → s.saved = true)
        (by simp only [Acknowledged, point])
    | .idle | .recover | .enter | .evaluate _ _ | .rollback _ | .commit _ | .run _ | .capture _
    | .prepare _ | .start _ | .await _ _ | .wait _ _ | .record _ _ | .compare _ | .mutated _
    | .complete _ | .cleanup | .cleanupRollback => isTrue (by simp only [Acknowledged, point])
  | .attempt | .started _ | .fail | .crash | .prompt | .tool _ | .activity _ _ | .mutate | .finish
  | .iterated _ _ => isTrue trivial

instance (s : AuditedLoop) : ∀ point, Decidable (s.HoldsBaseline point)
  | .mutated _ => inferInstanceAs (Decidable (_ ∨ _))
  | .idle | .recover | .enter | .evaluate _ _ | .rollback _ | .commit _ | .run _ | .capture _
  | .prepare _ | .start _ | .await _ _ | .wait _ _ | .record _ _ | .compare _ | .acknowledge _
  | .complete _ | .cleanup | .cleanupRollback => isTrue trivial

instance (s : AuditedLoop) : ∀ input, Decidable (s.Current input)
  | .advance => inferInstanceAs (Decidable (s.HoldsBaseline s.loop.point))
  | .tool _ | .activity _ _ => inferInstanceAs (Decidable (s.loop.turn ≠ none → _))
  | .attempt | .started _ | .fail | .crash | .prompt | .mutate | .finish
  | .iterated _ _ => isTrue trivial

def Covered (s : AuditedLoop) : Prop :=
  s.saved = true ∨ ∃ baseline, s.captured = some baseline ∧
    (s.loop.thread.load.reviewRecovery = none ∨
      s.loop.thread.load.reviewRecovery = some baseline)

def Unsnapped (s : AuditedLoop) : Prop := s.loop.worktree.snapshot = none

def Staged (s : AuditedLoop) (plan : TurnPlan) : Prop :=
  (plan.role = .review → s.Covered) ∧ (plan.role ≠ .review → s.Unsnapped)

def Guards (s : AuditedLoop) : Point → Prop
  | .idle | .recover | .cleanup | .cleanupRollback =>
    s.loop.turn = none ∧ (s.Unsnapped ∨ s.Covered)
  | .enter | .run _ | .evaluate _ _ | .complete _ => s.loop.Unguarded
  | .capture plan => s.loop.Unguarded ∧ s.loop.thread.load.reviewRecovery = none ∧
      plan.role = .review
  | .rollback next | .commit next => s.Unsnapped ∧ (next = .fail ∨ s.loop.turn = none)
  | .prepare plan => s.loop.turn = none ∧ s.captured = some s.loop.thread.load.baseline ∧
      s.loop.thread.load.reviewRecovery = none ∧ plan.role = .review
  | .start plan | .record plan _ => s.loop.turn = none ∧ s.Staged plan
  | .await plan _ | .wait plan _ => s.Staged plan
  | .compare outcome => s.Covered ∧ (outcome = none ∨ s.loop.turn = none)
  | .mutated resumption => s.Covered ∧ (resumption = .fail ∨ s.loop.turn = none)
  | .acknowledge resumption => s.saved = true ∧ (resumption = .fail ∨ s.loop.turn = none)

structure Sound (s : AuditedLoop) : Prop where
  point : s.Guards s.loop.point
  iterate : s.loop.operation = .iterate → s.loop.point = .idle ∧ s.Unsnapped

structure Reaches (s : AuditedLoop) (t : StageLoop) : Prop where
  operation : t.operation = s.loop.operation
  guards : Guards { s with loop := t } t.point

variable {config : ExecutorConfig} {s : AuditedLoop} {plan : TurnPlan} {next : Next}
  {checkpoint : StageCheckpoint}

theorem Covered.keep {t : StageLoop} (h : s.Covered)
    (recovery : t.thread.load.reviewRecovery = none ∨
      t.thread.load.reviewRecovery = s.loop.thread.load.reviewRecovery) :
    Covered { s with loop := t } := by
  rcases h with saved | ⟨baseline,captured,held⟩
  · exact .inl saved
  · refine .inr ⟨baseline,captured,?_⟩
    rcases recovery with removed | same
    · exact .inl removed
    · rwa [← same] at held

theorem Staged.covered (h : s.Staged plan) : s.Unsnapped ∨ s.Covered := by
  by_cases role : plan.role = .review
  · exact .inr (h.1 role)
  · exact .inl (h.2 role)

theorem Guards.covered {point : Point} (h : s.Guards point) : s.Unsnapped ∨ s.Covered := by
  cases point with
  | idle | recover | cleanup | cleanupRollback => exact h.2
  | enter | run | evaluate | complete | rollback | commit => exact .inl h.1
  | capture => exact .inl h.1.1
  | prepare => exact .inr (.inr ⟨_,h.2.1,.inl h.2.2.1⟩)
  | start | record => exact h.2.covered
  | await | wait => exact Staged.covered h
  | compare | mutated => exact .inr h.1
  | acknowledge => exact .inr (.inl h.1)

theorem abort_reaches (h : s.Unsnapped ∨ s.Covered) : s.Reaches s.loop.abort :=
  ⟨rfl,rfl,h.imp_right fun covered => covered.keep (.inr rfl)⟩

theorem follow_reaches (unsnapped : s.Unsnapped) (idle : next = .fail ∨ s.loop.turn = none) :
    s.Reaches (s.loop.follow next) := by
  cases next with
  | run | complete => exact ⟨rfl,unsnapped,idle.resolve_left nofun⟩
  | fail => exact abort_reaches (.inl unsnapped)

theorem retract_reaches {role : StageTurnRole} (unguarded : s.loop.Unguarded) :
    s.Reaches (s.loop.retract role next) := by
  unfold retract
  split
  · exact ⟨rfl,unguarded.1,.inr unguarded.2⟩
  · exact follow_reaches unguarded.1 (.inr unguarded.2)

theorem turnError_reaches (staged : s.Staged plan) : s.Reaches (s.loop.turnError plan) := by
  unfold turnError
  split
  · next role => exact ⟨rfl,staged.1 role,.inl rfl⟩
  · exact abort_reaches staged.covered

theorem evaluate_reaches {mayRerun : Bool} (unguarded : s.loop.Unguarded) :
    s.Reaches (s.loop.evaluate config checkpoint mayRerun) := by
  unfold evaluate
  split
  · exact retract_reaches unguarded
  · split
    · exact retract_reaches unguarded
    · unfold accept
      dsimp only
      split
      · exact ⟨rfl,unguarded.1,.inr unguarded.2⟩
      · exact follow_reaches unguarded.1 (.inr unguarded.2)

theorem enter_reaches (unguarded : s.loop.Unguarded) : s.Reaches (s.loop.enter config) := by
  unfold enter
  split
  · exact ⟨rfl,unguarded⟩
  · split
    · split
      · unfold completeFromReview
        split
        · exact abort_reaches (.inl unguarded.1)
        · split
          · exact abort_reaches (.inl unguarded.1)
          · exact ⟨rfl,unguarded⟩
      · exact ⟨rfl,unguarded⟩
    · split
      · exact abort_reaches (.inl unguarded.1)
      · exact ⟨rfl,unguarded⟩

theorem compareTurn_reaches {outcome : Option StageCheckpoint} (covered : s.Covered)
    (idle : outcome = none ∨ s.loop.turn = none) : s.Reaches (s.loop.compareTurn outcome) := by
  unfold compareTurn
  split
  · exact abort_reaches (.inr covered)
  · dsimp only
    split
    · exact ⟨rfl,covered.keep (.inr rfl),.inl rfl⟩
    · next unchanged =>
        have removed := compareWorktree_snapshot (Bool.eq_false_iff.mpr unchanged)
        cases outcome with
        | none => exact ⟨rfl,removed,.inl rfl⟩
        | some checkpoint => exact ⟨rfl,removed,idle.resolve_left nofun⟩

end AuditedLoop

end Runtime
