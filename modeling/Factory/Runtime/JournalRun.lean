import Factory.Runtime.JournalInvariant

namespace Runtime

namespace Journal

open Coordinator Table StageJournal List Option

variable {s : StageJournal} {w : JournalWorker} {point : JournalPoint} {role : StageTurnRole}
  {cycle : Nat} {checkpoint : TurnCheckpoint} {maxReviewCycles : UInt32}

theorem Traced.goto (h : Traced s.stop) (isOpen : openOperation s.operations = some w.operation)
    (backs : Backs s w point) : Traced (s.goto w point) := by
  refine ⟨h.logged,h.owned,h.progress,h.previous,?_⟩
  intro w' at_work
  obtain rfl := some.inj at_work
  exact ⟨isOpen,backs⟩

theorem Traced.stop (h : Traced s) : Traced s.stop := by
  refine ⟨h.logged,h.owned,h.progress,h.previous,?_⟩
  intro w at_work
  contradiction

variable {body : EntryBody} {attemptId : Option AttemptId} {operationId : Option OperationId}

theorem Backs.append (h : Backs s w point)
    (quiet : operationId = some w.operation.operationId → body.accepts = none) :
    Backs (s.append operationId attemptId body) w point := by
  cases point with
  | enter => trivial
  | evaluate checkpoint mayRerun => exact Evaluated.append h quiet
  | run | start => exact Admits.append h quiet
  | accepted | await | wait | complete => exact ⟨h.1.append quiet,h.2⟩

theorem Traced.append (h : Traced s)
    (recordable : Recordable s.turns ⟨s.nextSequence, operationId, attemptId, body⟩)
    (new : Continues s.operations s.latest ⟨s.nextSequence, operationId, attemptId, body⟩)
    (worker : ∀ w, s.worker = some w → Backs (s.append operationId attemptId body) w w.point) :
    Traced (s.append operationId attemptId body) := by
  refine ⟨h.logged.append rfl recordable,h.owned.append ?_,h.progress.append h.owned.ids new,
    h.previous,?_⟩
  · intro id own
    obtain ⟨o,isOpen,rfl⟩ := new.owner id own
    exact mem_map_of_mem (open_mem isOpen).1
  · intro w at_work
    exact ⟨(h.worker w at_work).1,worker w at_work⟩

theorem Traced.append_quiet (h : Traced s)
    (recordable : Recordable s.turns ⟨s.nextSequence, operationId, attemptId, body⟩)
    (owner : ∀ id, operationId = some id →
      ∃ o, openOperation s.operations = some o ∧ o.operationId = id) (quiet : body.accepts = none)
    (continues : body.completes = false) :
    Traced (s.append operationId attemptId body) := by
  refine h.append recordable ⟨owner,continues,?_⟩ ?_
  · intro m marked
    simp only [quiet,mem_def] at marked
    contradiction
  · intro w at_work
    exact (h.worker w at_work).2.append (fun _ => quiet)

theorem Unmarked.admits {entries : List Entry} {accepted : Accepted} {o : OperationRow}
    (h : Unmarked entries accepted o.operationId) (range : cycle ≤ u32Max)
    (kind : operationKind o = .remediate → role = .remediation) :
    Admits entries accepted o role cycle :=
  ⟨range,h.markersUpTo _,fun remediate => .inl (kind remediate)⟩

theorem Admits.turnAccepted {role' : StageTurnRole} {cycle' : Nat}
    (h : Admits s.entries s.accepted w.operation checkpoint.role checkpoint.cycle)
    (later : MarkerSlot.upTo (checkpoint.cycle, checkpoint.role.output) (cycle', role'.output))
    (range : cycle' ≤ u32Max)
    (role : role' = .remediation ∨
      role' = .review ∧ RemediationAccepted s.accepted w.operation.operationId) :
    Admits (s.emitReviewCycleCompleted w checkpoint).entries s.accepted w.operation role'
      cycle' := by
  refine ⟨range,(h.markers.mono later).append ?_,fun _ => role⟩
  intro _ m marked
  obtain rfl := some.inj marked
  exact ⟨later,h.range⟩

theorem startedKind_foreign (kind : OperationKind) : startedKind kind ∉ journalKinds := by
  cases kind <;> decide

theorem registered_of_mem {turns : List StartedTurn} {turn : TurnRef} {id : OperationId}
    {attemptId : AttemptId} (mem : ⟨turn.turnId, id, attemptId⟩ ∈ turns) :
    Registered turns turn id :=
  ⟨_,mem,rfl,rfl⟩

section Working

variable (h : Traced s) (isOpen : openOperation s.operations = some w.operation)

include h isOpen

theorem Traced.note {kind : String} (foreign : kind ∉ journalKinds) (payload : Json.Value) :
    Traced (s.emit w (.noted kind payload)) := by
  refine h.append_quiet (.inr foreign) ?_ rfl rfl
  intro id own
  exact ⟨w.operation,isOpen,some.inj own⟩

theorem Traced.observe (backs : Backs s w (.wait checkpoint)) {event : TurnEvent}
    (permitted : event.permitted = true) :
    Traced (s.emit w (.observed checkpoint.turn event)) := by
  refine h.append_quiet ?_ ?_ rfl rfl
  · exact ⟨permitted,_,backs.2,rfl,rfl,rfl⟩
  · intro id own
    exact ⟨w.operation,isOpen,some.inj own⟩

theorem Traced.idle_unmarked (idle : s.latest = none) :
    Unmarked s.entries s.accepted w.operation.operationId :=
  h.progress.unmarked _ (open_mem isOpen).1 (open_mem isOpen).2 (fun _ => idle)

theorem Traced.bypass (idle : s.latest = none) {turn : TurnRef}
    (previous : s.previous = some turn) :
    Backs s w (.complete ⟨.completed, .review, 1, turn⟩) := by
  have unmarked := h.idle_unmarked isOpen idle
  obtain ⟨owner,registered,settled⟩ := h.previous turn previous
  refine ⟨⟨show 1 ≤ u32Max by decide,unmarked.markersUpTo _,
    fun _ => .inr ⟨rfl,unmarked,owner,?_,registered⟩⟩,owner,registered,.inr settled⟩
  rintro rfl
  exact open_unsettled h.owned.ids isOpen settled

theorem Traced.enter (approved : Bool) : Traced (s.enter w approved) := by
  cases recorded : s.latest with
  | some checkpoint =>
    simp only [StageJournal.enter,recorded]
    obtain ⟨o,same,admits,registered⟩ := h.progress.latest checkpoint recorded
    obtain rfl := some.inj (isOpen.symm.trans same)
    exact h.stop.goto isOpen ⟨⟨checkpoint,recorded,rfl,rfl⟩,admits,registered⟩
  | none =>
    have unmarked := h.idle_unmarked isOpen recorded
    have fresh {role : StageTurnRole} {kind : OperationKind}
        (found : operationKind w.operation = kind) (other : kind ≠ .remediate) :
        Admits s.entries s.accepted w.operation role 0 :=
      unmarked.admits (Nat.zero_le _) (fun same => absurd (found.symm.trans same) other)
    cases kind : operationKind w.operation with
    | remediate =>
      simp only [StageJournal.enter,recorded,kind]
      split
      · cases previous : s.previous with
        | none => exact h.stop
        | some turn => exact h.stop.goto isOpen (h.bypass isOpen recorded previous)
      · exact h.stop.goto isOpen (unmarked.admits (by decide) (fun _ => rfl))
    | review | plan | execute | iterate =>
      simp only [StageJournal.enter,recorded,kind]
      exact h.stop.goto isOpen (fresh kind (by decide))

theorem Traced.accept (recorded : Recorded s.latest checkpoint) :
    Traced (StageJournal.stop { s with
      accepted := (w.operation.operationId, checkpoint.role) :: s.accepted }) := by
  obtain ⟨l,found,-⟩ := recorded
  refine ⟨h.logged,h.owned.accept (open_mem isOpen).1,
    h.progress.accept h.owned.ids isOpen found,h.previous,?_⟩
  intro w' at_work
  contradiction

theorem Traced.evaluate
    (backs : Evaluated s.entries s.accepted s.turns s.latest w.operation checkpoint)
    (mayRerun finished valid : Bool) :
    Traced (s.evaluate w checkpoint mayRerun finished valid) := by
  unfold StageJournal.evaluate
  split
  · exact h.stop.goto isOpen backs.admits
  · split
    · refine (h.accept isOpen backs.recorded).goto isOpen ?_
      exact ⟨⟨backs.recorded,backs.admits.accept,backs.registered⟩,mem_cons_self⟩
    · split
      · exact h.stop.goto isOpen backs.admits
      · exact h.stop

theorem Traced.turnAccepted (kind : operationKind w.operation = .remediate)
    (backs : Evaluated s.entries s.accepted s.turns s.latest w.operation checkpoint) :
    Traced (s.emitReviewCycleCompleted w checkpoint).stop := by
  refine h.stop.append trivial ⟨?_,rfl,?_⟩ ?_
  · intro id own
    exact ⟨w.operation,isOpen,some.inj own⟩
  · intro m marked o found
    obtain rfl := some.inj (isOpen.symm.trans found)
    obtain rfl := some.inj marked
    obtain ⟨l,recorded,role,cycle⟩ := backs.recorded
    refine ⟨kind,l,recorded,?_,backs.admits.range⟩
    rw [role,cycle]
    exact .inr ⟨rfl,le_rfl⟩
  · intro w' at_work
    contradiction

theorem Traced.conclude
    (backs : Evaluated s.entries s.accepted s.turns s.latest w.operation checkpoint)
    (mem : (w.operation.operationId, checkpoint.role) ∈ s.accepted) (approve : Bool) :
    Traced (s.conclude maxReviewCycles w checkpoint approve) := by
  have completed : Traced (s.goto w (.complete checkpoint)) :=
    h.stop.goto isOpen ⟨backs.finishing mem,_,backs.registered,.inl rfl⟩
  cases kind : operationKind w.operation with
  | remediate =>
    have emitted := h.turnAccepted isOpen kind backs
    cases role : checkpoint.role with
    | remediation =>
      simp only [StageJournal.conclude,kind,role]
      split
      · exact completed
      · refine emitted.goto isOpen (backs.admits.turnAccepted ?_ backs.admits.range ?_)
        · rw [role]
          exact .inr ⟨rfl,Nat.zero_le _⟩
        · rw [role] at mem
          exact .inr ⟨rfl,mem⟩
    | review =>
      simp only [StageJournal.conclude,kind,role]
      split
      · exact completed
      · split
        · exact emitted
        · next remaining =>
          refine emitted.goto isOpen (backs.admits.turnAccepted ?_ ?_ (.inl rfl))
          · exact .inl (Nat.lt_succ_self _)
          · have bound := maxReviewCycles.toNat_lt
            unfold u32Max
            omega
    | stage =>
      simp only [StageJournal.conclude,kind,role]
      exact h.stop
  | plan | execute | review | iterate =>
    simp only [StageJournal.conclude,kind]
    exact completed

theorem Traced.runTurn (backs : Admits s.entries s.accepted w.operation role cycle) :
    Traced (s.runTurn w role cycle) := by
  have noted := h.note isOpen (startedKind_foreign (operationKind w.operation))
  exact (noted _).stop.goto isOpen (backs.append (fun _ => rfl))

theorem Traced.startTurn (backs : Admits s.entries s.accepted w.operation role cycle)
    (turn : TurnRef) :
    Traced (s.startTurn w role cycle turn) := by
  unfold StageJournal.startTurn
  split
  · exact h
  · next fresh =>
    have registered : Traced (StageJournal.stop { s with
        turns := ⟨turn.turnId,w.operation.operationId,w.attemptId⟩ :: s.turns }) := by
      refine ⟨h.logged.register fresh,h.owned,h.progress.register,?_,?_⟩
      · intro previous found
        obtain ⟨owner,known,settled⟩ := h.previous previous found
        exact ⟨owner,known.mono,settled⟩
      · intro w' at_work
        contradiction
    exact registered.goto isOpen ⟨backs,mem_cons_self⟩

theorem Traced.record (backs : Backs s w (.wait checkpoint)) {recorded : TurnCheckpoint}
    (role : recorded.role = checkpoint.role) (cycle : recorded.cycle = checkpoint.cycle)
    (turn : recorded.turn = checkpoint.turn) :
    Traced (StageJournal.stop { s with latest := some recorded }) := by
  refine ⟨h.logged,h.owned,h.progress.record isOpen ?_ ?_,h.previous,?_⟩
  · rw [role,cycle]
    exact backs.1
  · rw [turn]
    exact registered_of_mem backs.2
  · intro w' at_work
    contradiction

theorem Traced.finishTurn (backs : Backs s w (.wait checkpoint)) :
    Traced (s.finishTurn w checkpoint) := by
  have completed : Traced (StageJournal.stop { s with
      latest := some { checkpoint with phase := .turnCompleted } }) :=
    h.record isOpen backs rfl rfl rfl
  refine completed.goto isOpen ?_
  exact ⟨⟨_,rfl,rfl,rfl⟩,backs.1,registered_of_mem backs.2⟩

theorem Traced.settle (backs : Backs s w (.complete checkpoint)) (findings : List Json.Value) :
    Traced (s.settle w checkpoint findings) := by
  obtain ⟨member,-⟩ := open_mem isOpen
  obtain ⟨finishing,owner,registered,settled⟩ := backs
  refine ⟨h.logged.append rfl trivial,?_,?_,?_,?_⟩
  · refine (h.owned.append ?_).settle
    intro id own
    obtain rfl := some.inj own
    exact mem_map_of_mem member
  · exact h.progress.settle h.logged h.owned.ids isOpen rfl rfl rfl finishing
  · intro turn found
    obtain rfl := some.inj found
    refine ⟨owner,registered,?_⟩
    rcases settled with rfl | settled
    · exact settled_settleOperation member
    · exact settled.settleOperation
  · intro w' at_work
    contradiction

end Working

theorem Traced.addOperations (h : Traced s) (closed : openOperation s.operations = none)
    (operationIds : List OperationId) : Traced (s.addOperations operationIds) := by
  unfold StageJournal.addOperations
  split
  · next nodup =>
    generalize named : (operationIds.zipIdx s.operations.length).map (fun entry =>
      (⟨entry.1,s.jobId,entry.2,(OperationKind.atOrdinal entry.2).asWireName,.null,.ready,3,
        0⟩ : OperationRow)) = added
    have ids : added.map (·.operationId) = operationIds := by
      simp [← named,Function.comp_def]
    have ordinals : added.map (·.ordinal) = range' s.operations.length added.length := by
      simp [← named,Function.comp_def,zipIdx_map_snd]
    have ready : ∀ p ∈ added, p.status ≠ .succeeded := by
      intro p mem
      rw [← named] at mem
      obtain ⟨entry,-,rfl⟩ := mem_map.mp mem
      exact fun same => OperationState.noConfusion same
    have kinds : ∀ p ∈ added, p.kind = (operationKind p).asWireName := by
      intro p mem
      rw [← named] at mem
      obtain ⟨entry,-,rfl⟩ := mem_map.mp mem
      rfl
    rw [← ids] at nodup
    refine ⟨h.logged,h.owned.add ordinals kinds nodup,h.progress.add h.owned closed ?_ ready,?_,?_⟩
    · intro p mem known
      exact (nodup_append.mp nodup).2.2 _ known _ (mem_map_of_mem mem) rfl
    · intro turn found
      obtain ⟨owner,registered,o,known,settled⟩ := h.previous turn found
      exact ⟨owner,registered,o,mem_append_left _ known,settled⟩
    · intro w at_work
      have isOpen := (h.worker w at_work).1
      rw [closed] at isOpen
      contradiction
  · exact h

theorem Traced.work (h : Traced s) (at_work : s.worker = some w) (input : JournalStep) :
    Traced (s.work maxReviewCycles w input) := by
  obtain ⟨isOpen,backs⟩ := h.worker w at_work
  cases input with
  | enter approved =>
    simp only [StageJournal.work]
    split
    · exact h.enter isOpen approved
    · exact h
  | evaluate finished valid =>
    simp only [StageJournal.work]
    split
    · next checkpoint mayRerun here =>
      rw [here] at backs
      exact h.evaluate isOpen backs mayRerun finished valid
    · exact h
  | conclude approve =>
    simp only [StageJournal.work]
    split
    · next checkpoint here =>
      rw [here] at backs
      exact h.conclude isOpen backs.1 backs.2 approve
    · exact h
  | run =>
    simp only [StageJournal.work]
    split
    · next role cycle here =>
      rw [here] at backs
      exact h.runTurn isOpen backs
    · exact h
  | started turn =>
    simp only [StageJournal.work]
    split
    · next role cycle here =>
      rw [here] at backs
      exact h.startTurn isOpen backs turn
    · exact h
  | await =>
    simp only [StageJournal.work]
    split
    · next checkpoint here =>
      rw [here] at backs
      exact (h.record isOpen backs rfl rfl rfl).goto isOpen backs
    · exact h
  | observe event =>
    simp only [StageJournal.work]
    split
    · next checkpoint here =>
      rw [here] at backs
      split
      · next permitted => exact h.observe isOpen backs permitted
      · exact h
    · exact h
  | finish =>
    simp only [StageJournal.work]
    split
    · next checkpoint here =>
      rw [here] at backs
      exact h.finishTurn isOpen backs
    · exact h
  | settle findings =>
    simp only [StageJournal.work]
    split
    · next checkpoint here =>
      rw [here] at backs
      exact h.settle isOpen backs findings
    · exact h
  | note kind payload =>
    simp only [StageJournal.work]
    split
    · exact h
    · next foreign => exact h.note isOpen foreign payload
  | stop => exact h.stop
  | create | continueJob | claim | jobEvent | otherJobs => exact h

theorem Traced.claim (h : Traced s) {attemptId : AttemptId} {o : OperationRow}
    (isOpen : openOperation s.operations = some o) :
    Traced { s with worker := some ⟨attemptId, o, .enter⟩ } := by
  refine ⟨h.logged,h.owned,h.progress,h.previous,?_⟩
  intro w at_work
  obtain rfl := some.inj at_work
  exact ⟨isOpen,trivial⟩

theorem Traced.jobEvent (h : Traced s) (kind : String) (payload : Json.Value) :
    Traced (s.append none none (.noted kind payload)) := by
  refine h.append_quiet (.inl rfl) ?_ rfl rfl
  intro id own
  contradiction

theorem Traced.otherJobs (h : Traced s) (count : Nat) :
    Traced { s with nextSequence := s.nextSequence + count } := by
  refine ⟨⟨h.logged.sequences,?_,h.logged.turnIds,h.logged.observed,h.logged.noted⟩,h.owned,
    h.progress,h.previous,h.worker⟩
  intro e mem
  exact (h.logged.bounded e mem).trans_le (Nat.le_add_right _ _)

theorem Traced.step (h : Traced s) (input : JournalStep) :
    Traced (s.step maxReviewCycles input) := by
  cases input with
  | create operationIds =>
    simp only [StageJournal.step]
    split
    · next fresh => exact h.addOperations (by rw [fresh.1]; rfl) operationIds
    · exact h
  | continueJob operationIds =>
    cases at_work : s.worker with
    | some w =>
      simp only [StageJournal.step,at_work]
      exact h.work at_work _
    | none =>
      simp only [StageJournal.step,at_work]
      split
      · next closed => exact h.addOperations (isNone_iff_eq_none.mp closed.2.1) operationIds
      · exact h
  | claim attemptId =>
    cases at_work : s.worker with
    | some w =>
      simp only [StageJournal.step,at_work]
      exact h.work at_work _
    | none =>
      simp only [StageJournal.step,at_work]
      split
      · exact h
      · next o isOpen => exact h.claim isOpen
  | jobEvent kind payload => exact h.jobEvent kind payload
  | otherJobs count => exact h.otherJobs count
  | stop | enter | evaluate | conclude | run | started | await | observe | finish | settle | note =>
    cases at_work : s.worker with
    | some w =>
      simp only [StageJournal.step,at_work]
      exact h.work at_work _
    | none =>
      simp only [StageJournal.step,at_work]
      exact h

theorem traced_start (jobId : JobId) : Traced (StageJournal.start jobId) := by
  refine ⟨⟨.nil,?_,.nil,?_,?_⟩,⟨rfl,?_,.nil,?_,?_⟩,⟨?_,?_,?_,?_,?_⟩,?_,?_⟩
  all_goals
    intro x found
    contradiction

theorem traced_run (maxReviewCycles : UInt32) (jobId : JobId) (inputs : List JournalStep) :
    Traced ((StageJournal.start jobId).run maxReviewCycles inputs) :=
  Machine.run_invariant (fun _ input h => h.step input) (traced_start jobId) inputs

end Journal

end Runtime
