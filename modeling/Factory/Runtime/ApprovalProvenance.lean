import Factory.Runtime.StageLoopProgram

namespace Runtime

open Extension

namespace StageLoop

variable {config : ExecutorConfig} {s : StageLoop}

theorem Vetted.failed (h : s.Vetted) : s.failed.Vetted := by
  have ⟨core,at_point⟩ := h
  unfold StageLoop.failed
  generalize s.point = here at at_point ⊢
  cases here with
  | idle => exact h
  | start | await | wait | record => exact core.turnError _
  | cleanup | cleanupRollback => exact ⟨core.goto _,at_point⟩
  | mutated resumption =>
    cases resumption with
    | stop => exact ⟨core.goto _,at_point.resolve_left nofun⟩
    | enter | fail => exact core.abort
  | acknowledge resumption =>
    cases resumption with
    | stop => exact ⟨core.goto _,at_point.2.resolve_left nofun⟩
    | enter | fail => exact core.abort
  | recover | enter | evaluate | rollback | commit | run | capture | prepare | compare | complete =>
    exact core.abort

theorem Core.begin (h : s.Core) {plan : TurnPlan} (turn : TurnRef) (guarded : s.Guarded plan none) :
    Vetted { s with
      turn := some ⟨turn, plan, false⟩
      started := turn :: s.started
      reviewer := if plan.role = .review then some turn else s.reviewer
      point := .await plan turn } := by
  by_cases role : plan.role = .review
  · obtain ⟨present,unowned⟩ := guarded.1 role
    simp only [role,if_true]
    have before : s.trusted = s.clean := by simp [StageLoop.trusted,pendingReview,unowned]
    refine ⟨⟨?_,fun running hit _ => ?_,h.previous,h.latest⟩,
      fun _ => ⟨present,rfl⟩,fun text => absurd role text⟩
    · refine h.thread.mono (before ▸ ?_) fun _ hit => hit
      exact List.subset_append_right _ _
    · cases hit
      simp [StageLoop.trusted,pendingReview,present]
  · simp only [role,if_false]
    refine ⟨⟨h.thread,fun running hit review => ?_,h.previous,h.latest⟩,
      fun review => absurd review role,guarded.2⟩
    cases hit
    exact absurd review role

theorem Vetted.beginTurn (h : s.Vetted) (turn : TurnRef) : (s.beginTurn turn).Vetted := by
  have ⟨core,at_point⟩ := h
  unfold StageLoop.beginTurn
  split
  · next plan point =>
      rw [point] at at_point
      split
      · exact core.turnError plan
      · split
        · exact h
        · exact core.begin turn at_point.1
  · exact h

variable {running : RunningTurn}

theorem mayCall_accounted {call : FactoryToolCall} (h : s.Core) (active : s.turn = some running)
    (allowed : s.mayCall running call = true) :
    AccountedThread s.trusted s.clean (s.thread.call call) := by
  unfold mayCall at allowed
  split at allowed
  · next role =>
      split at allowed
      · next provenance args =>
          simp only [Option.any_eq_true,decide_eq_true_eq] at allowed
          obtain ⟨parentTurnId,_,rfl⟩ := allowed
          exact h.thread.review (h.turn running active role) _ args
      · cases allowed
  · cases call with
    | remediation dispositions => exact h.thread.remediate dispositions
    | decompose | progress | review => cases allowed
  · cases call with
    | remediation dispositions => exact h.thread.remediate dispositions
    | decompose | progress | review => cases allowed

theorem At.of_active {t : StageLoop} (active : s.turn = some running) (at_point : s.At s.point)
    (snapshot : t.worktree.snapshot = s.worktree.snapshot) (reviewer : t.reviewer = s.reviewer)
    (clean : t.clean = s.clean) (calm : s.point.reverting = true → t.thread.load = s.thread.load) :
    t.At s.point := by
  have busy : s.turn ≠ none := by rw [active]; exact nofun
  generalize s.point = here at at_point calm ⊢
  cases here with
  | idle | recover | cleanup | cleanupRollback | enter | run | start | record =>
    exact absurd at_point.2 busy
  | capture | evaluate | complete => exact absurd at_point.1.2 busy
  | prepare => exact absurd at_point.1 busy
  | await plan turn | wait plan turn =>
    simp only [At,Guarded,snapshot,reviewer]
    exact at_point
  | compare outcome => exact fun checkpoint hit => absurd (at_point checkpoint hit).2 busy
  | rollback next =>
    cases next with
    | run plan => exact absurd at_point.2 busy
    | complete checkpoint => exact at_point.elim
    | fail => trivial
  | commit next =>
    cases next with
    | run plan => exact absurd at_point.2 busy
    | complete checkpoint => exact absurd at_point.1.2 busy
    | fail => trivial
  | mutated resumption => exact at_point.imp_right fun quiet => absurd quiet.2 busy
  | acknowledge resumption =>
    simp only [At,clean,calm rfl]
    exact ⟨at_point.1,at_point.2.imp_right fun quiet => absurd quiet.2 busy⟩

theorem Vetted.duringTurn (h : s.Vetted)
    {f : RunningTurn → FactoryThreadState → FactoryThreadState}
    (keeps : ∀ running, s.turn = some running →
      AccountedThread s.trusted s.clean (f running s.thread))
    (calm : ∀ running, s.point.reverting = true → (f running s.thread).load = s.thread.load) :
    (s.duringTurn f).Vetted := by
  have ⟨core,at_point⟩ := h
  unfold StageLoop.duringTurn
  split
  · exact h
  · next running active =>
      split
      · exact h
      · exact ⟨⟨keeps running active,core.turn,core.previous,core.latest⟩,
          At.of_active (s := s) active at_point rfl rfl rfl (calm running)⟩

theorem Core.upsertActivities (h : s.Core)
    (activities : List (FactorySubagentActivity × Option Nat)) :
    AccountedThread s.trusted s.clean (StageLoop.upsertActivities activities s.thread) := by
  have keeps : ∀ thread, AccountedThread s.trusted s.clean thread →
      AccountedThread s.trusted s.clean (StageLoop.upsertActivities activities thread) := by
    induction activities with
    | nil => exact fun _ known => known
    | cons entry rest ih => exact fun _ known => ih _ (known.upsertActivity entry.1 entry.2)
  exact keeps s.thread h.thread

theorem Vetted.step (h : s.Vetted) {input : LoopStep} (disciplined : s.Disciplined input) :
    (s.step config input).Vetted := by
  have ⟨core,at_point⟩ := h
  cases input with
  | attempt =>
    simp only [StageLoop.step]
    split
    · next idle =>
        rw [idle.1] at at_point
        exact ⟨core.goto _,at_point⟩
    · exact h
  | advance => exact h.advance disciplined
  | started turn => exact h.beginTurn turn
  | fail => exact h.failed
  | crash => exact core.stop
  | prompt =>
    exact h.duringTurn (fun _ _ => core.thread.loadIfNeeded) fun _ _ => rfl
  | tool call =>
    refine h.duringTurn (fun running active => ?_) fun _ reverting => ?_
    · split
      · next allowed => exact mayCall_accounted core active allowed
      · exact core.thread
    · cases reverting.symm.trans disciplined
  | activity activity archive =>
    refine h.duringTurn
      (fun _ _ => core.thread.upsertActivity activity archive) fun _ reverting => ?_
    cases reverting.symm.trans disciplined
  | mutate => exact ⟨⟨core.thread,core.turn,core.previous,core.latest⟩,at_point⟩
  | finish =>
    simp only [StageLoop.step]
    split
    · exact h
    · next running active =>
        refine ⟨⟨core.thread,fun ended hit role => ?_,core.previous,core.latest⟩,
          At.of_active (s := s) active at_point rfl rfl rfl fun _ => rfl⟩
        cases hit
        exact core.turn running active role
  | iterated previous activities =>
    simp only [StageLoop.step]
    split
    · next idle =>
        rw [idle.1] at at_point
        refine ⟨⟨(core.upsertActivities activities).forget,core.turn,
          ⟨List.mem_cons_self,idle.2.2⟩,nofun⟩,?_⟩
        simp only [idle.1]
        exact ⟨rfl,at_point.2⟩
    · exact h

theorem start_vetted (previous : StageCheckpoint) (state : FactoryState) :
    (start previous state).Vetted := by
  have unreviewed : (start previous state).thread.load.review = none := rfl
  have unprepared : (start previous state).thread.load.reviewRecovery = none := rfl
  have uncached : (start previous state).thread.cached = none := rfl
  have idle : (start previous state).turn = none := rfl
  have first : (start previous state).latest = none := rfl
  refine ⟨⟨⟨⟨?_,?_⟩,?_⟩,?_,⟨List.mem_cons_self,rfl⟩,?_⟩,uncached,idle⟩
  · intro report hit
    cases unreviewed.symm.trans hit
  · intro baseline hit
    cases unprepared.symm.trans hit
  · intro cached hit
    cases uncached.symm.trans hit
  · intro running hit
    cases idle.symm.trans hit
  · intro checkpoint hit
    cases first.symm.trans hit

theorem Vetted.provenance (h : s.Vetted) (input : LoopStep) : s.Provenance input := by
  cases input with
  | advance =>
    intro completing op
    have at_point := h.point
    cases point : s.point with
    | complete checkpoint =>
      rw [point] at at_point
      exact at_point.2.2 op
    | _ =>
      rw [point] at completing
      cases completing
  | _ => trivial

theorem approval_provenance (config : ExecutorConfig) (previous : StageCheckpoint)
    (state : FactoryState) (steps : List LoopStep)
    (disciplined : Machine.Along (step config) Disciplined (start previous state) steps) :
    Machine.Along (step config) Provenance (start previous state) steps :=
  @Machine.along_of_invariant _ _ (step config) (start previous state) Disciplined Vetted Provenance
    (fun _ _ allowed h => h.step allowed) (fun _ input _ h => h.provenance input)
    (start_vetted previous state) steps disciplined

def executedCheckpoint : StageCheckpoint :=
  ⟨.execute, "parent", "parent", "execute-turn", .completed, .stage, 0, 0, none, none⟩

def executedState : FactoryState :=
  ⟨3, [⟨"unit", "Unit", "Build it", [], .completed, some "built"⟩], none, [], [], [], none, none⟩

def threeCycles : ExecutorConfig := ⟨id, 3⟩

def reviewCall (turn : TurnRef) (parentTurnId : String) (args : ReviewArgs) : LoopStep :=
  .tool (.review (detachedProvenance turn.turnId turn.threadId ⟨"parent", parentTurnId⟩) args)

def rejectedReview : List LoopStep :=
  [.attempt, .advance, .advance, .advance, .advance, .advance, .started ⟨"review-1", "turn-1"⟩,
    .advance, .prompt,
    reviewCall ⟨"review-1", "turn-1"⟩ "execute-turn"
      ⟨.requestChanges, "needs work", [⟨"finding", .major, "unit", "Bug", "seen", "fix"⟩]⟩,
    .finish, .advance, .advance, .advance, .advance, .advance, .advance]

def remediationTurn : List LoopStep :=
  [.attempt, .advance, .advance, .advance, .started ⟨"parent", "turn-2"⟩, .advance, .prompt,
    .tool (.remediation [⟨"finding", .resolved, "fixed", "unit"⟩]), .finish, .advance, .advance]

def secondReview : List LoopStep :=
  [.crash, .attempt, .advance, .advance, .advance, .advance, .advance, .advance,
    .started ⟨"review-2", "turn-3"⟩]

def approvingCall : LoopStep :=
  reviewCall ⟨"review-2", "turn-3"⟩ "turn-2" ⟨.approve, "passes", []⟩

def approvedRun : List LoopStep :=
  rejectedReview ++ remediationTurn ++ secondReview ++
    [.advance, .prompt, approvingCall, .finish, .advance, .advance, .advance, .advance, .advance,
      .advance]

theorem approval_provenance_approved :
    (Machine.run (step threeCycles) (start executedCheckpoint executedState)
        approvedRun).operation = .iterate ∧
      Machine.Along (step threeCycles) Provenance (start executedCheckpoint executedState)
        approvedRun :=
  ⟨by decide,approval_provenance threeCycles executedCheckpoint executedState approvedRun
    (by decide)⟩

def interruptedRun : List LoopStep :=
  rejectedReview ++ remediationTurn ++ secondReview ++
    [.prompt, approvingCall, .crash, .attempt, .advance, .advance, .advance]

theorem approval_without_observed_review :
    (Machine.run (step threeCycles) (start executedCheckpoint executedState)
        (interruptedRun ++ [.advance])).operation = .iterate ∧
      ¬ Machine.Along (step threeCycles) Provenance (start executedCheckpoint executedState)
        (interruptedRun ++ [.advance]) := by
  decide

end StageLoop

end Runtime
