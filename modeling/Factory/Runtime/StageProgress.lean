import Factory.Runtime.StageResumption

namespace Runtime

open Extension Result TaskLoop Machine

namespace TaskLoop

variable {config : ExecutorConfig} {t : TaskLoop} {plan : TurnPlan} {calls : List FactoryToolCall}

def paused : TaskLoop → Bool
  | .executing e =>
    match e.point with
    | .start _ | .complete _ => false
    | _ => true
  | .reviewing s =>
    match s.point with
    | .start _ | .complete _ | .commit .fail => false
    | _ => true

theorem paused_unsettled (h : t.paused = true) : ¬ t.Settles config := by
  rintro (completing | spent | ⟨plan,starting,-⟩)
  · cases t with
    | executing e =>
      simp only [TaskLoop.completing] at completing
      split at completing
      · next checkpoint complete => simp [paused,complete] at h
      · cases completing
    | reviewing s =>
      simp only [TaskLoop.completing,Point.completing] at completing
      split at completing
      · next checkpoint complete => simp [paused,complete] at h
      · cases completing
  · cases t with
    | executing e => exact spent
    | reviewing s =>
      obtain ⟨failing,-⟩ := spent
      simp [paused,failing] at h
  · cases t with
    | executing | reviewing =>
      simp only [TaskLoop.starting] at starting
      split at starting
      · next plan start => simp [paused,start] at h
      · cases starting

theorem starting_cases (h : t.starting = some plan) :
    (∃ e, t = .executing e ∧ e.point = .start plan) ∨
      ∃ s, t = .reviewing s ∧ s.point = .start plan := by
  cases t with
  | executing e =>
    simp only [starting] at h
    split at h
    · next plan start =>
      cases h
      exact .inl ⟨e,rfl,start⟩
    · cases h
  | reviewing s =>
    simp only [starting] at h
    split at h
    · next plan start =>
      cases h
      exact .inr ⟨s,rfl,start⟩
    · cases h

theorem starting_rests (h : t.starting = some plan) : t.step config .advance = t := by
  rcases starting_cases h with ⟨e,rfl,start⟩ | ⟨s,rfl,start⟩
  · have stepped : e.step config .advance = e := by
      simp only [ExecuteLoop.step,ExecuteLoop.advance,start]
    have taken : take config (.executing e) .advance = .executing (e.step config .advance) := by
      simp only [take,start]
    change take config (.executing e) .advance = _
    rw [taken,stepped]
  · have stepped : s.step config .advance = s := by
      simp only [StageLoop.step,StageLoop.advance,start]
    exact congrArg reviewing stepped

theorem nextRun_succ (t : TaskLoop) (steps : Nat) :
    t.nextRun config (steps + 1) = (t.nextRun config steps).step config .advance := by
  simp only [nextRun,Machine.run,List.replicate_succ',List.foldl_cons,List.foldl_append,
    List.foldl_nil]

theorem nextRun_rests {steps n : Nat} (starting : (t.nextRun config steps).starting = some plan)
    (after : steps ≤ n) : t.nextRun config n = t.nextRun config steps := by
  induction n, after using Nat.le_induction with
  | base => rfl
  | succ n _ ih => rw [nextRun_succ,ih,starting_rests starting]

theorem not_unwedged {steps : Nat} (early : ∀ n < steps, (t.nextRun config n).paused = true)
    (starting : (t.nextRun config steps).starting = some plan)
    (blocked : ¬ (t.nextRun config steps).Passable config plan) : ¬ t.Unwedged config := by
  rintro ⟨n,settles⟩
  rcases Nat.lt_or_ge n steps with before | after
  · exact paused_unsettled (early n before) settles
  · rw [nextRun_rests starting after] at settles
    rcases settles with completing | spent | ⟨other,started,passable⟩
    · rcases starting_cases starting with ⟨e,found,start⟩ | ⟨s,found,start⟩
      · simp [found,TaskLoop.completing,start] at completing
      · simp [found,TaskLoop.completing,Point.completing,start] at completing
    · rcases starting_cases starting with ⟨e,found,start⟩ | ⟨s,found,start⟩
      · rw [found] at spent
        exact spent
      · rw [found] at spent
        cases start.symm.trans spent.1
    · obtain rfl : plan = other := Option.some.inj (starting.symm.trans started)
      exact blocked passable

def executes : TaskLoop → Bool
  | .executing _ => true
  | .reviewing _ => false

def thread : TaskLoop → FactoryThreadState
  | .executing e => e.thread
  | .reviewing s => s.thread

def turn : TaskLoop → Option RunningTurn
  | .executing e => e.turn
  | .reviewing s => s.turn

theorem checkpointOf_shape {phase : StageCheckpointPhase} {ref : TurnRef}
    {checkpoint : StageCheckpoint} (h : t.checkpointOf phase plan ref = .ok checkpoint) :
    checkpoint.plan = plan ∧ (t.executes = true → checkpoint.operation = .execute) := by
  cases t with
  | executing e =>
    simp only [checkpointOf,ExecuteLoop.checkpointOf,bind_ok] at h
    obtain ⟨lineage,-,built⟩ := h
    rw [(StageCheckpoint.new_ok built).1]
    exact ⟨rfl,fun _ => rfl⟩
  | reviewing s =>
    simp only [checkpointOf,StageLoop.checkpointOf,bind_ok] at h
    obtain ⟨lineage,-,built⟩ := h
    rw [(StageCheckpoint.new_ok built).1]
    exact ⟨rfl,by rintro ⟨⟩⟩

theorem executing_exhausted (executes : t.executes = true)
    (finished : ∀ unit ∈ t.state.workUnits, unit.status = .completed)
    (along : Machine.Along (step config) Accepts t (calls.map .tool)) : calls = [] := by
  cases t with
  | reviewing s => cases executes
  | executing e =>
    cases calls with
    | nil => rfl
    | cons call rest =>
      obtain ⟨⟨offered,next,accepted⟩,-⟩ := along
      simp only [offers,Bool.and_eq_true] at offered
      have staged : call.stage = .execute := of_decide_eq_true offered.2
      cases call with
      | progress args =>
        obtain ⟨changed,-,mutated,rfl⟩ := FactoryToolCall.apply_ok accepted
        obtain ⟨unit,known,-,unfinished,-⟩ := Planned.progress_ok mutated
        exact absurd (finished unit known) unfinished
      | decompose | review | remediation => cases staged

theorem started_executes {ref : TurnRef} :
    (t.step config (.started ref)).executes = t.executes := by
  unfold step
  split
  · cases t with
    | executing e => rfl
    | reviewing s => rfl
  · rfl

theorem executing_blocked {ref : TurnRef} (issued : t.issues ref = true)
    (stage : plan.role = .stage) (executes : t.executes = true)
    (finished : ∀ unit ∈ (t.step config (.started ref)).state.workUnits, unit.status = .completed)
    (stale : (t.step config (.started ref)).state.revision ≤ plan.baselines.revision) :
    ¬ t.Passable config plan := by
  intro passable
  obtain ⟨checkpoint,built,calls,along,valid⟩ := passable ref issued
  obtain ⟨shape,executing⟩ := checkpointOf_shape built
  obtain rfl := executing_exhausted (started_executes.trans executes) finished along
  have role : checkpoint.turnRole = .stage := (congrArg TurnPlan.role shape).trans stage
  have baseline : checkpoint.stateRevisionBaseline = plan.baselines.revision :=
    congrArg (fun plan : TurnPlan => plan.baselines.revision) shape
  simp only [validateCheckpointState,role,validateStageTurn,executing executes,bind_ok] at valid
  obtain ⟨_,-,moved⟩ := valid
  have advanced : checkpoint.stateRevisionBaseline <
      (t.step config (.started ref)).state.revision := by
    rw [if_neg (by simp)] at moved
    exact ensure_ok.mp moved
  omega

end TaskLoop

def Stuck (turnId : String) (generation : Nat) (state : FactoryState) : Prop :=
  ∃ report, state.review = some report ∧ (report.generation < generation ∨
    report.generation ≤ generation ∧ report.recordedTurnId = some turnId)

section Stuck

variable {turnId : String} {generation : Nat} {state next : FactoryState}
  {order : List String → List String} {checkpoint : StageCheckpoint}

theorem Stuck.rejected (h : Stuck turnId generation state) (role : checkpoint.turnRole = .review)
    (captured : checkpoint.reviewGenerationBaseline = some generation) :
    validateCheckpointState order state checkpoint ≠ .ok () := by
  intro accepted
  obtain ⟨report,found,bound⟩ := h
  simp only [validateCheckpointState,role,validateReviewTurn,bind_ok] at accepted
  obtain ⟨baseline,captures,⟨⟩,valid,-⟩ := accepted
  have same : generation = baseline.generation := by
    simp only [checkpointReviewBaseline,captured,bind_ok,okOr_ok,Option.some.injEq] at captures
    obtain ⟨_,rfl,parent,-,built⟩ := captures
    have parts := StageResult.text_ok.mp built
    simp only [ReviewBaseline.fromParts,bind_ok,pure_ok] at parts
    obtain ⟨_,-,_,-,rfl⟩ := parts
    rfl
  have reviewed : validateReview order state baseline = .ok () := StageResult.text_ok.mp valid
  simp only [validateReview,bind_ok,okOr_ok] at reviewed
  obtain ⟨⟨⟩,-,other,hit,checked⟩ := reviewed
  obtain rfl : report = other := Option.some.inj (found.symm.trans hit)
  simp only [validateReviewReport,validateGeneration,bind_ok,ensure_ok,exists_const] at checked
  obtain ⟨⟨⟩,⟨-,newer⟩,-⟩ := checked
  rcases bound with below | ⟨within,-⟩ <;> omega

variable {active : RunningTurn} {config : ExecutorConfig}

theorem Stuck.review {context : DetachedReviewThreadContext} {args : ReviewArgs}
    (h : Stuck active.turn.turnId generation state) (positive : 0 < generation)
    (accepted : (FactoryToolCall.review
      (detachedProvenance active.turn.turnId active.turn.threadId context) args).apply state =
        .ok next) : Stuck active.turn.turnId generation next := by
  obtain ⟨report,found,bound⟩ := h
  obtain ⟨changed,-,mutated,rfl⟩ := FactoryToolCall.apply_ok accepted
  obtain ⟨-,recorded,-⟩ := (Planned.review_ok mutated).fields
  refine ⟨_,recorded,.inr ⟨?_,rfl⟩⟩
  have current := currentGeneration_of_review found
  change Planned.recordedGeneration _ state ≤ generation
  unfold Planned.recordedGeneration
  rw [current]
  split
  · rcases bound with below | ⟨within,-⟩ <;> omega
  · next other =>
    have below : report.generation < generation := by
      refine bound.resolve_right fun ⟨_,same⟩ => other ?_
      simp only [FactoryState.sameTurn,found,Option.any_some,same]
      simp [Planned.reviewReport,detachedProvenance]
    unfold saturatingSucc
    omega

theorem TaskLoop.reviewing_stuck {s : StageLoop} {calls : List FactoryToolCall}
    (turn : s.turn = some active) (unfinished : active.completed = false)
    (role : active.plan.role = .review) (fresh : s.thread.current = s.thread.load)
    (positive : 0 < generation) (stuck : Stuck active.turn.turnId generation s.thread.load)
    (along : Machine.Along (step config) Accepts (.reviewing s) (calls.map .tool)) :
    Stuck active.turn.turnId generation
      (Machine.run (step config) (.reviewing s) (calls.map .tool)).state := by
  induction calls generalizing s with
  | nil => exact stuck
  | cons call rest ih =>
    obtain ⟨⟨offered,next,accepted⟩,later⟩ := along
    rw [offers,turn,Option.any_some] at offered
    rw [reviewing_tool turn unfinished offered] at later
    obtain ⟨loaded,current⟩ := call_accepted fresh accepted
    have moved : Stuck active.turn.turnId generation (s.thread.call call).load := by
      rw [loaded]
      cases call with
      | review provenance args =>
        simp only [StageLoop.mayCall,role,Option.any_eq_true,decide_eq_true_eq] at offered
        obtain ⟨parentTurnId,-,rfl⟩ := offered
        exact stuck.review positive accepted
      | decompose | progress | remediation => simp [StageLoop.mayCall,role] at offered
    rw [List.map_cons,Machine.run,List.foldl_cons,reviewing_tool turn unfinished offered]
    exact @ih { s with thread := s.thread.call call } turn current moved later

theorem TaskLoop.reviewing_blocked {t : TaskLoop} {plan : TurnPlan} {ref : TurnRef} {earlier : Nat}
    (issued : t.issues ref = true) (role : plan.role = .review)
    (captured : plan.baselines.reviewGeneration = some generation) (reviewing : t.executes = false)
    (turn : (t.step config (.started ref)).turn = some ⟨ref, plan, false⟩)
    (cached : (t.step config (.started ref)).thread.cached = none)
    (behind : (t.step config (.started ref)).state.review.map (·.generation) = some earlier)
    (below : earlier < generation) : ¬ t.Passable config plan := by
  intro passable
  obtain ⟨checkpoint,built,calls,along,valid⟩ := passable ref issued
  obtain ⟨shape,-⟩ := checkpointOf_shape built
  have reviewing := (@started_executes config t ref).trans reviewing
  generalize t.step config (.started ref) = begun at *
  cases begun with
  | executing e => cases reviewing
  | reviewing s =>
    obtain ⟨report,found,same⟩ := Option.map_eq_some_iff.mp behind
    have fresh : s.thread.current = s.thread.load :=
      FactoryThreadState.current_of_cached (by simp [show s.thread.cached = none from cached])
    have stuck : Stuck ref.turnId generation s.thread.load :=
      ⟨report,found,.inl (same.symm ▸ below)⟩
    have still := reviewing_stuck turn rfl role fresh (Nat.zero_lt_of_lt below) stuck along
    refine still.rejected ?_ ?_ valid
    · exact (congrArg TurnPlan.role shape).trans role
    · exact (congrArg (fun plan : TurnPlan => plan.baselines.reviewGeneration) shape).trans captured

end Stuck

theorem ExecuteLoop.Sound.settle {units : List WorkUnitArgs} {e : ExecuteLoop}
    {order : List String → List String} {checkpoint : StageCheckpoint}
    (h : ExecuteLoop.Sound units e) (complete : e.point = .complete checkpoint) :
    (e.settle checkpoint).Steady order units := by
  have point := h.point
  rw [complete] at point
  obtain ⟨-,-,valid,finished⟩ := point
  obtain ⟨unreviewed,recovery⟩ := h.unreviewed
  have sane : Sane units (e.started.map TurnRef.turnId) none e.thread.load := by
    refine ⟨h.planned,finished,fun report found => ?_,fun report found => ?_,
      fun report found => ?_,nofun⟩ <;> exact absurd (unreviewed.symm.trans found) nofun
  obtain ⟨named,-⟩ := (StageCheckpoint.validate_iff checkpoint).mp valid
  exact ⟨⟨Grounds.of_unprepared sane recovery,named.parent,.inl rfl,valid,nofun,nofun,
    nofun⟩,rfl,rfl⟩

namespace TaskLoop

def Healthy (order : List String → List String) (units : List WorkUnitArgs) : TaskLoop → Prop
  | .executing e => ExecuteLoop.Sound units e
  | .reviewing s => s.Steady order units

variable {config : ExecutorConfig} {units : List WorkUnitArgs} {t : TaskLoop}

theorem Healthy.step (h : t.Healthy config.order units)
    (permutes : ∀ ids, (config.order ids).Perm ids) {input : LoopStep}
    (sheltered : t.Sheltered input) : (t.step config input).Healthy config.order units := by
  unfold TaskLoop.step
  split
  · next admitted =>
    cases t with
    | reviewing s => exact StageLoop.Steady.step h admitted sheltered
    | executing e =>
      simp only [take]
      split
      · next complete => exact ExecuteLoop.Sound.settle h complete
      · exact ExecuteLoop.Sound.step h permutes admitted sheltered
  · exact h

theorem Healthy.unwedged (h : t.Healthy config.order units)
    (permutes : ∀ ids, (config.order ids).Perm ids) (claimable : t.claimable = true)
    (below : t.state.revision < u64Max) : t.Unwedged config := by
  cases t with
  | executing e =>
    simp only [TaskLoop.claimable,decide_eq_true_eq] at claimable
    exact ExecuteLoop.Sound.unwedged h permutes claimable below
  | reviewing s =>
    simp only [TaskLoop.claimable,Bool.and_eq_true,decide_eq_true_eq] at claimable
    exact StageLoop.Steady.unwedged h permutes claimable.1 claimable.2 below

theorem never_wedged (config : ExecutorConfig) (permutes : ∀ ids, (config.order ids).Perm ids)
    (plan : StageCheckpoint) (events : List PlanEvent)
    (admissible : ∀ event ∈ events, event.Admissible) (operation : plan.operation = .plan)
    (valid : plan.validate = .ok ())
    (accepted : validateCheckpointState config.order (planThread events).load plan = .ok ())
    (steps : List LoopStep)
    (sheltered : Machine.Along (step config) Sheltered (start plan events) steps)
    (claimable : (run (step config) (start plan events) steps).claimable = true)
    (below : (run (step config) (start plan events) steps).state.revision < u64Max) :
    (run (step config) (start plan events) steps).Unwedged config := by
  obtain ⟨units,sound⟩ := start_sound admissible operation valid accepted
  have begun : (start plan events).Healthy config.order units := sound
  have preserved : ∀ t input, Sheltered t input → t.Healthy config.order units →
      (t.step config input).Healthy config.order units :=
    fun t input allowed h => h.step permutes allowed
  have healthy := along_invariant preserved begun sheltered
  exact healthy.unwedged permutes claimable below

def planned : StageCheckpoint :=
  ⟨.plan, "parent", "parent", "turn-0", .completed, .stage, 0, 0, none, none⟩

def decomposed : List PlanEvent := [.decompose id [⟨"unit", "Unit", "Build it", []⟩]]

def threeCycles : ExecutorConfig := ⟨id, 3⟩

def built : LoopStep := .tool (.progress ⟨"unit", .completed, "built"⟩)

def rejected (turn : TurnRef) (parentTurnId : String) : LoopStep :=
  .tool (.review (detachedProvenance turn.turnId turn.threadId ⟨"parent", parentTurnId⟩)
    ⟨.requestChanges, "needs work", [⟨"finding", .major, "unit", "Bug", "seen", "fix"⟩]⟩)

def resolved : LoopStep := .tool (.remediation [⟨"finding", .resolved, "fixed", "unit"⟩])

def advances (steps : Nat) : List LoopStep := List.replicate steps .advance

def executedSteps : List LoopStep :=
  [.attempt, .advance, .started ⟨"parent", "turn-1"⟩, .advance, built, .finish] ++ advances 4

def reviewedSteps : List LoopStep :=
  executedSteps ++ .attempt :: advances 5 ++
    [.started ⟨"review-1", "turn-2"⟩, .advance, rejected ⟨"review-1", "turn-2"⟩ "turn-1",
      .finish] ++ advances 6

def remediatedSteps : List LoopStep :=
  reviewedSteps ++ .attempt :: advances 3 ++
    [.started ⟨"parent", "turn-3"⟩, .advance, resolved, .finish] ++ advances 2 ++ [.crash]

theorem never_wedged_remediation :
    (run (step threeCycles) (start planned decomposed) remediatedSteps).claimable = true ∧
      (run (step threeCycles) (start planned decomposed) remediatedSteps).Unwedged
        threeCycles := by
  refine ⟨by decide +kernel,never_wedged threeCycles (fun ids => .refl ids) planned decomposed
    (fun event member => ?_) rfl rfl rfl remediatedSteps (by decide +kernel) (by decide +kernel)
    (by decide +kernel)⟩
  rw [List.mem_singleton.mp member]
  exact fun ids => .refl ids

def hastySteps : List LoopStep :=
  [.attempt, .advance, .started ⟨"parent", "turn-1"⟩, built, .crash]

def interruptedSteps : List LoopStep :=
  remediatedSteps ++ .attempt :: advances 6 ++
    [.started ⟨"review-2", "turn-4"⟩, rejected ⟨"review-2", "turn-4"⟩ "turn-3", .crash,
      .attempt] ++ advances 4 ++
    [.started ⟨"parent", "turn-5"⟩, .advance, resolved, .finish] ++ advances 6 ++
    [.started ⟨"review-3", "turn-6"⟩, .advance, .crash]

theorem stages_wedged :
    validateCheckpointState threeCycles.order (planThread decomposed).load planned = .ok () ∧
      (run (step threeCycles) (start planned decomposed) hastySteps).claimable = true ∧
      ¬ (run (step threeCycles) (start planned decomposed) hastySteps).Unwedged
        threeCycles ∧
      (run (step threeCycles) (start planned decomposed) interruptedSteps).claimable =
        true ∧
      ¬ (run (step threeCycles) (start planned decomposed) interruptedSteps).Unwedged
        threeCycles := by
  generalize hasty : run (step threeCycles) (start planned decomposed) hastySteps = t
  generalize interrupted :
    run (step threeCycles) (start planned decomposed) interruptedSteps = u
  have stale : t.claimable = true ∧ (∀ n < 1, (t.nextRun threeCycles n).paused = true) ∧
      (t.nextRun threeCycles 1).starting = some ⟨.stage,0,⟨2,none,none⟩⟩ ∧
      (t.nextRun threeCycles 1).issues ⟨"parent","turn-2"⟩ = true ∧
      (t.nextRun threeCycles 1).executes = true ∧
      (∀ unit ∈ ((t.nextRun threeCycles 1).step threeCycles
        (.started ⟨"parent","turn-2"⟩)).state.workUnits, unit.status = .completed) ∧
      ((t.nextRun threeCycles 1).step threeCycles
        (.started ⟨"parent","turn-2"⟩)).state.revision ≤ 2 := by
    rw [← hasty]
    decide +kernel
  have behind : u.claimable = true ∧ (∀ n < 7, (u.nextRun threeCycles n).paused = true) ∧
      (u.nextRun threeCycles 7).starting =
        some ⟨.review,1,⟨6,some 2,some "turn-5"⟩⟩ ∧
      (u.nextRun threeCycles 7).issues ⟨"review-4","turn-7"⟩ = true ∧
      (u.nextRun threeCycles 7).executes = false ∧
      ((u.nextRun threeCycles 7).step threeCycles (.started ⟨"review-4","turn-7"⟩)).turn =
        some ⟨⟨"review-4","turn-7"⟩,⟨.review,1,⟨6,some 2,some "turn-5"⟩⟩,false⟩ ∧
      ((u.nextRun threeCycles 7).step threeCycles
        (.started ⟨"review-4","turn-7"⟩)).thread.cached = none ∧
      ((u.nextRun threeCycles 7).step threeCycles
        (.started ⟨"review-4","turn-7"⟩)).state.review.map (·.generation) = some 1 := by
    rw [← interrupted]
    decide +kernel
  obtain ⟨claimable,early,starting,issued,executes,finished,revision⟩ := stale
  obtain ⟨reclaimable,pending,rerun,reissued,reviewing,turn,cached,generation⟩ := behind
  exact ⟨rfl,claimable,
    not_unwedged early starting (executing_blocked issued rfl executes finished revision),
    reclaimable,not_unwedged pending rerun
      (reviewing_blocked reissued rfl rfl reviewing turn cached generation (by decide))⟩

end TaskLoop

end Runtime
