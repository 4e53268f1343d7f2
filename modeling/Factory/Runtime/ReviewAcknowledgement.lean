import Factory.Runtime.AuditedLoop

namespace Runtime

open Extension StageLoop FactoryThreadState AuditedLoop

namespace AuditedLoop

variable {config : ExecutorConfig} {s : AuditedLoop} {plan : TurnPlan}

theorem captureSnapshot_guards (config : ExecutorConfig) (unguarded : s.loop.Unguarded)
    (unprepared : s.loop.thread.load.reviewRecovery = none) (role : plan.role = .review)
    (point : s.loop.point = .capture plan) :
    (s.step config .advance).loop.operation = s.loop.operation ∧
      (s.step config .advance).Guards (s.step config .advance).loop.point := by
  have same : s.loop.compareWorktree.1 = false := by
    rcases s.loop.worktree.recover_cases with ⟨unchanged,_⟩ | ⟨_,present,_⟩
    · exact unchanged
    · rw [unguarded.1] at present
      cases present
  have captured : s.loop.step config .advance =
      { s.loop.compareWorktree.2 with
        worktree := ⟨some false,false⟩, reviewer := none, point := .prepare plan } := by
    simp [StageLoop.step,StageLoop.advance,point,StageLoop.captureSnapshot,same]
  have audited : s.step config .advance =
      ⟨s.loop.step config .advance,some s.loop.thread.load.baseline,false⟩ := by
    unfold step
    rw [point,captured]
  rw [audited,captured]
  exact ⟨rfl,unguarded.2,rfl,unprepared,role⟩

variable {resumption : Resumption} {t : StageLoop}
  {f : RunningTurn → FactoryThreadState → FactoryThreadState}

theorem Covered.restored (h : s.Covered) (held : s.HoldsBaseline (.mutated resumption)) :
    (s.saved || s.restored (rollbackDetachedReview s.loop.thread).load) = true := by
  rcases held with saved | held
  · rw [saved,Bool.true_or]
  rcases h with saved | ⟨baseline,captured,recovery⟩
  · rw [saved,Bool.true_or]
  · rw [AuditedLoop.restored,rollbackDetachedReview_recovery,captured]
    rcases recovery with unprepared | prepared
    · rw [unprepared,captured] at held
      rw [rollbackDetachedReview_unprepared unprepared,held.resolve_left nofun]
      simp
    · rw [rollbackDetachedReview_baseline prepared]
      simp

theorem mutated_guards (config : ExecutorConfig) (covered : s.Covered)
    (held : s.HoldsBaseline (.mutated resumption))
    (idle : resumption = .fail ∨ s.loop.turn = none) (point : s.loop.point = .mutated resumption) :
    (s.step config .advance).loop.operation = s.loop.operation ∧
      (s.step config .advance).Guards (s.step config .advance).loop.point := by
  have rolledBack : s.loop.step config .advance =
      { s.loop with
        thread := rollbackDetachedReview s.loop.thread, point := .acknowledge resumption } := by
    simp [StageLoop.step,StageLoop.advance,point]
  have audited : s.step config .advance = ⟨s.loop.step config .advance,s.captured,
      s.saved || s.restored (s.loop.step config .advance).thread.load⟩ := by
    unfold step
    rw [point]
  rw [audited,rolledBack]
  exact ⟨rfl,covered.restored held,idle⟩

theorem acknowledge_reaches (saved : s.saved = true) (idle : resumption = .fail ∨ t.turn = none)
    (operation : t.operation = s.loop.operation)
    (unsnapped : resumption = .enter → t.worktree.snapshot = none) :
    s.Reaches (t.resume resumption) := by
  cases resumption with
  | enter => exact ⟨operation,unsnapped rfl,idle.resolve_left nofun⟩
  | fail => exact ⟨operation,rfl,.inr (.inl saved)⟩
  | stop => exact ⟨operation,idle.resolve_left nofun,.inr (.inl saved)⟩

theorem changed_covered (h : s.Unsnapped ∨ s.Covered)
    (changed : s.loop.compareWorktree.1 = true) : s.Covered := by
  rcases h with unsnapped | covered
  · rcases s.loop.worktree.recover_cases with ⟨unchanged,_⟩ | ⟨_,present,_⟩
    · cases unchanged.symm.trans changed
    · rw [unsnapped] at present
      cases present
  · exact covered

def Audits : Point → Prop
  | .idle | .complete _ | .capture _ | .mutated _ => False
  | _ => True

theorem Guards.advance (h : s.Guards s.loop.point) (plain : Audits s.loop.point) :
    s.Reaches (s.loop.advance config) := by
  have guards := h
  unfold StageLoop.advance
  generalize s.loop.point = here at h plain ⊢
  cases here with
  | idle | complete | capture | mutated => exact plain.elim
  | recover =>
    dsimp only
    refine ⟨rfl,?_⟩
    cases changed : s.loop.compareWorktree.1 with
    | true => exact ⟨(changed_covered h.2 changed).keep (.inr rfl),.inr h.1⟩
    | false => exact ⟨compareWorktree_snapshot changed,h.1⟩
  | enter => exact enter_reaches h
  | evaluate checkpoint mayRerun => exact evaluate_reaches h
  | rollback next =>
    dsimp only
    have rolledBack := follow_reaches (s := { s with
      loop := { s.loop with thread := rollbackDetachedReview s.loop.thread } }) h.1 h.2
    exact ⟨rolledBack.1,rolledBack.2⟩
  | commit next =>
    dsimp only
    have committed := follow_reaches (s := { s with
      loop := { s.loop with thread := commitDetachedReview s.loop.thread } }) h.1 h.2
    exact ⟨committed.1,committed.2⟩
  | run plan =>
    dsimp only
    split
    · next role => exact ⟨rfl,h,rollbackDetachedReview_recovery _,role⟩
    · next role => exact ⟨rfl,h.2,fun review => absurd review role,fun _ => h.1⟩
  | prepare plan =>
    dsimp only
    obtain ⟨idle,captured,unprepared,role⟩ := h
    have armed : s.loop.thread.load.prepareReviewRecovery.reviewRecovery =
        some s.loop.thread.load.baseline := by
      simp only [FactoryState.prepareReviewRecovery,FactoryState.rollbackReviewRecovery,
        unprepared]
    exact ⟨rfl,idle,fun _ => .inr ⟨_,captured,.inr armed⟩,fun text => absurd role text⟩
  | start plan => exact ⟨rfl,guards⟩
  | await plan turn =>
    dsimp only
    split
    · exact turnError_reaches h
    · exact ⟨rfl,h⟩
  | wait plan turn =>
    dsimp only
    split
    · exact ⟨rfl,rfl,h⟩
    · exact ⟨rfl,guards⟩
  | record plan turn =>
    dsimp only
    split
    · exact turnError_reaches h.2
    · refine ⟨rfl,?_⟩
      by_cases role : plan.role = .review
      · simp only [role,if_true]
        exact ⟨h.2.1 role,.inr h.1⟩
      · simp only [role,if_false]
        exact ⟨h.2.2 role,h.1⟩
  | compare outcome => exact compareTurn_reaches h.1 h.2
  | acknowledge resumption =>
    dsimp only
    split
    · split
      · next stop =>
          exact acknowledge_reaches h.1 (.inr (h.2.resolve_left (by simp [stop]))) rfl (by simp)
      · exact acknowledge_reaches h.1 (.inl rfl) rfl (by simp)
    · next worktree acknowledged =>
        exact acknowledge_reaches h.1 h.2 rfl fun _ =>
          ReviewWorktree.acknowledge_snapshot acknowledged
  | cleanup =>
    dsimp only
    refine ⟨rfl,?_⟩
    cases changed : s.loop.compareWorktree.1 with
    | true => exact ⟨(changed_covered h.2 changed).keep (.inr rfl),.inr h.1⟩
    | false => exact ⟨h.1,.inl (compareWorktree_snapshot changed)⟩
  | cleanupRollback => exact ⟨rfl,h.1,h.2.imp_right fun covered =>
      covered.keep (.inl (rollbackDetachedReview_recovery _))⟩

theorem advance_plain (plain : Audits s.loop.point) :
    s.step config .advance = { s with loop := s.loop.step config .advance } := by
  unfold step
  dsimp only
  split
  · next point _ =>
      rw [point] at plain
      exact plain.elim
  · next point =>
      rw [point] at plain
      exact plain.elim
  · rfl

theorem Guards.failed (h : s.Guards s.loop.point) : s.Reaches s.loop.failed := by
  have guards := h
  have covered := h.covered
  unfold StageLoop.failed
  generalize s.loop.point = here at h ⊢
  cases here with
  | idle => exact ⟨rfl,guards⟩
  | start | record => exact turnError_reaches h.2
  | await | wait => exact turnError_reaches h
  | cleanup | cleanupRollback =>
    exact ⟨rfl,h.1,h.2.imp_right fun covered => covered.keep (.inr rfl)⟩
  | mutated resumption =>
    cases resumption with
    | stop =>
      exact ⟨rfl,h.2.resolve_left nofun,.inr (h.1.keep (.inr rfl))⟩
    | enter | fail => exact abort_reaches covered
  | acknowledge resumption =>
    cases resumption with
    | stop => exact ⟨rfl,h.2.resolve_left nofun,.inr (.inl h.1)⟩
    | enter | fail => exact abort_reaches covered
  | recover | enter | evaluate | rollback | commit | run | capture | prepare | compare | complete =>
    exact abort_reaches covered

theorem Guards.beginTurn (h : s.Guards s.loop.point) (turn : TurnRef) :
    s.Reaches (s.loop.beginTurn turn) := by
  unfold StageLoop.beginTurn
  split
  · next plan point =>
      have staged : s.Staged plan := by
        rw [point] at h
        exact h.2
      split
      · exact turnError_reaches staged
      · split
        · exact ⟨rfl,h⟩
        · exact ⟨rfl,staged⟩
  · exact ⟨rfl,h⟩

theorem Guards.of_active {point : Point} (h : s.Guards point) (busy : s.loop.turn ≠ none)
    (snapshot : t.worktree.snapshot = s.loop.worktree.snapshot)
    (recovery : t.thread.load.reviewRecovery = none ∨
      t.thread.load.reviewRecovery = s.loop.thread.load.reviewRecovery) :
    Guards { s with loop := t } point := by
  have staged : ∀ plan, s.Staged plan → Staged { s with loop := t } plan := fun _ staged =>
    ⟨fun role => (staged.1 role).keep recovery,fun role => snapshot.trans (staged.2 role)⟩
  cases point with
  | idle | recover | cleanup | cleanupRollback | prepare | start | record => exact absurd h.1 busy
  | enter | run | evaluate | complete => exact absurd h.2 busy
  | capture => exact absurd h.1.2 busy
  | rollback | commit =>
    exact ⟨snapshot.trans h.1,h.2.imp_right fun idle => absurd idle busy⟩
  | await | wait => exact staged _ h
  | compare | mutated => exact ⟨h.1.keep recovery,h.2.imp_right fun idle => absurd idle busy⟩
  | acknowledge => exact ⟨h.1,h.2.imp_right fun idle => absurd idle busy⟩

theorem Guards.duringTurn (h : s.Guards s.loop.point)
    (recovery : s.loop.turn ≠ none → ∀ running,
      (f running s.loop.thread).load.reviewRecovery = none ∨
        (f running s.loop.thread).load.reviewRecovery = s.loop.thread.load.reviewRecovery) :
    s.Reaches (s.loop.duringTurn f) := by
  unfold StageLoop.duringTurn
  split
  · exact ⟨rfl,h⟩
  · next running active =>
      have busy : s.loop.turn ≠ none := by rw [active]; exact nofun
      split
      · exact ⟨rfl,h⟩
      · exact ⟨rfl,h.of_active busy rfl (recovery busy running)⟩

theorem update_keeps {thread : FactoryThreadState}
    {mutation : FactoryState → Except String FactoryState}
    (keeps : ∀ state next, mutation state = .ok next →
      next.reviewRecovery = state.reviewRecovery)
    (current : ∀ cached ∈ thread.cached, cached.reviewRecovery = none ∨
      cached.reviewRecovery = thread.load.reviewRecovery) :
    (thread.update mutation).load.reviewRecovery = none ∨
      (thread.update mutation).load.reviewRecovery = thread.load.reviewRecovery := by
  rcases update_recovery keeps with same | written
  · exact .inr same
  · rw [written,FactoryThreadState.current]
    cases cached : thread.cached with
    | none => exact .inr rfl
    | some state => exact current state cached

theorem Sound.advance (h : s.Sound) (held : s.HoldsBaseline s.loop.point) :
    (s.step config .advance).Sound := by
  by_cases plain : Audits s.loop.point
  · rw [advance_plain plain]
    obtain ⟨operation,guards⟩ : s.Reaches (s.loop.advance config) := h.point.advance plain
    refine ⟨guards,fun iterate => ?_⟩
    rw [(h.iterate (operation.symm.trans iterate)).1] at plain
    exact plain.elim
  · have guards := h.point
    cases point : s.loop.point with
    | idle =>
      have still : s.step config .advance = s := by
        unfold step
        simp [StageLoop.step,StageLoop.advance,point]
      rw [still]
      exact h
    | complete checkpoint =>
      have settled : s.step config .advance = { s with loop := s.loop.settle checkpoint } := by
        unfold step
        simp [StageLoop.step,StageLoop.advance,point]
      rw [point] at guards
      rw [settled]
      exact ⟨⟨rfl,.inl guards.1⟩,fun _ => ⟨rfl,guards.1⟩⟩
    | capture plan =>
      rw [point] at guards
      obtain ⟨operation,after⟩ := captureSnapshot_guards config guards.1 guards.2.1
        guards.2.2 point
      refine ⟨after,fun iterate => ?_⟩
      cases point.symm.trans (h.iterate (operation.symm.trans iterate)).1
    | mutated resumption =>
      rw [point] at guards held
      obtain ⟨operation,after⟩ := mutated_guards config guards.1 held guards.2 point
      refine ⟨after,fun iterate => ?_⟩
      cases point.symm.trans (h.iterate (operation.symm.trans iterate)).1
    | _ => exact absurd (by rw [point]; trivial) plain

theorem Reaches.sound (reaches : s.Reaches t) (h : s.Sound)
    (point : s.loop.point = .idle →
      t.point = .idle ∧ t.worktree.snapshot = s.loop.worktree.snapshot) :
    Sound { s with loop := t } := by
  refine ⟨reaches.guards,fun iterate => ?_⟩
  obtain ⟨idle,unsnapped⟩ := h.iterate (reaches.operation.symm.trans iterate)
  exact ⟨(point idle).1,(point idle).2.trans unsnapped⟩

theorem duringTurn_idle (idle : s.loop.point = .idle) :
    (s.loop.duringTurn f).point = .idle ∧
      (s.loop.duringTurn f).worktree.snapshot = s.loop.worktree.snapshot := by
  unfold duringTurn
  split
  · exact ⟨idle,rfl⟩
  · split
    · exact ⟨idle,rfl⟩
    · exact ⟨idle,rfl⟩

theorem Sound.step (h : s.Sound) {input : LoopStep} (current : s.Current input) :
    (s.step config input).Sound := by
  have covered := h.point.covered
  cases input with
  | advance => exact h.advance current
  | attempt =>
    change Sound { s with loop := s.loop.step config .attempt }
    simp only [StageLoop.step]
    split
    · next idle =>
        have guards := h.point
        rw [idle.1] at guards
        refine ⟨⟨guards.1,guards.2.imp_right fun covered => covered.keep (.inr rfl)⟩,
          fun iterate => absurd iterate idle.2⟩
    · exact h
  | started turn =>
    change Sound { s with loop := s.loop.step config (.started turn) }
    refine (h.point.beginTurn turn).sound h fun idle => ?_
    simp [beginTurn,idle]
  | fail =>
    change Sound { s with loop := s.loop.step config .fail }
    refine h.point.failed.sound h fun idle => ?_
    simp [failed,idle]
  | crash =>
    change Sound { s with loop := s.loop.step config .crash }
    refine ⟨⟨rfl,covered.imp_right fun covered => covered.keep (.inr rfl)⟩,fun iterate => ?_⟩
    exact ⟨rfl,(h.iterate iterate).2⟩
  | prompt =>
    change Sound { s with loop := s.loop.step config .prompt }
    exact (h.point.duringTurn fun _ _ => .inr rfl).sound h duringTurn_idle
  | tool call =>
    change Sound { s with loop := s.loop.step config (.tool call) }
    refine (h.point.duringTurn fun busy running => ?_).sound h duringTurn_idle
    split
    · unfold FactoryThreadState.call
      split
      · exact .inr rfl
      · exact update_keeps (fun _ _ => FactoryToolCall.mutate_recovery) (current busy)
    · exact .inr rfl
  | activity activity archive =>
    change Sound { s with loop := s.loop.step config (.activity activity archive) }
    refine (h.point.duringTurn fun busy running => ?_).sound h duringTurn_idle
    refine update_keeps (fun state next accepted => ?_) (current busy)
    cases accepted
    exact applyActivity_recovery activity archive state
  | mutate =>
    change Sound { s with loop := s.loop.step config .mutate }
    exact ⟨h.point,h.iterate⟩
  | finish =>
    change Sound { s with loop := s.loop.step config .finish }
    simp only [StageLoop.step]
    split
    · exact h
    · next running active =>
        have busy : s.loop.turn ≠ none := by rw [active]; exact nofun
        exact ⟨h.point.of_active busy rfl (.inr rfl),h.iterate⟩
  | iterated previous activities =>
    change Sound { s with loop := s.loop.step config (.iterated previous activities) }
    simp only [StageLoop.step]
    split
    · next idle =>
        have guards := h.point
        rw [idle.1] at guards
        exact ⟨by simp only [idle.1]; exact ⟨guards.1,.inl (h.iterate idle.2.1).2⟩,nofun⟩
    · exact h

theorem start_sound (previous : StageCheckpoint) (state : FactoryState) :
    (start previous state).Sound :=
  ⟨⟨rfl,.inl rfl⟩,nofun⟩

theorem Sound.acknowledged (h : s.Sound) (input : LoopStep) : s.Acknowledged input := by
  cases input with
  | advance =>
    have guards := h.point
    cases point : s.loop.point with
    | acknowledge resumption =>
      rw [point] at guards
      simp only [Acknowledged,point]
      exact fun _ => guards.1
    | _ => simp only [Acknowledged,point]
  | _ => trivial

theorem acknowledged_along (config : ExecutorConfig) (previous : StageCheckpoint)
    (state : FactoryState) (steps : List LoopStep)
    (current : Machine.Along (step config) Current (start previous state) steps) :
    Machine.Along (step config) Acknowledged (start previous state) steps :=
  @Machine.along_of_invariant _ _ (step config) (start previous state) Current Sound Acknowledged
    (fun _ _ current h => h.step current) (fun _ input _ h => h.acknowledged input)
    (start_sound previous state) steps current

end AuditedLoop

end Runtime
