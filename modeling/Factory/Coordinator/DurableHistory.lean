import Factory.Coordinator.EventGrowth

namespace Coordinator

open List Store

structure History (s t : Store) : Prop where
  checkpoints : s.checkpoints <+: t.checkpoints
  correlations : s.correlations <+: t.correlations
  operations : ∀ o ∈ s.operations, o.status = .succeeded → o ∈ t.operations
  events : ∃ added, t.events = s.events ++ added ∧ ∀ o ∈ s.operations, o.status = .succeeded →
    ∀ e ∈ added, e.operationId ≠ some o.operationId

structure Archived (s : Store) : Prop where
  events : Numbered s.events s.nextSequence
  correlations : (s.correlations.map (·.correlationId)).Nodup
  checkpoints : s.checkpoints.Pairwise fun c d =>
    c.attemptId = d.attemptId → c.sequence < d.sequence

variable {now : Timestamp} {first s t : Store} {command : Command} {response : Response}

theorem History.exec (h : History first s) (sound : s.Sound)
    (done : s.exec now command = .ok (response, t)) : History first t := by
  have records := exec_records done
  obtain ⟨f,_,advances⟩ := exec_advances sound done
  obtain ⟨added,grown,apart⟩ := h.events
  refine ⟨h.checkpoints.trans ?_,h.correlations.trans ?_,fun o known kept => ?_,?_⟩
  · rcases records.checkpoints with ⟨-,same⟩ | ⟨_,_,-,-,-,_,more⟩
    · exact same ▸ prefix_rfl
    · exact more ▸ prefix_append _ _
  · obtain ⟨_,more⟩ := records.correlations
    exact more ▸ prefix_append _ _
  · have listed := h.operations o known kept
    rw [advances.rows_eq]
    exact mem_append_left _ (mem_map.mpr ⟨o,listed,advances.kept o listed kept⟩)
  · cases exec_logs sound done with
    | silent same _ => exact ⟨added,same.trans grown,apart⟩
    | logged row more _ _ foreign =>
      refine ⟨added ++ [row],by rw [more,grown,append_assoc],fun o known kept e listed => ?_⟩
      rcases mem_append.mp listed with old | new
      · exact apart o known kept e old
      · exact mem_singleton.mp new ▸ foreign o (h.operations o known kept) kept

theorem Archived.exec (h : Archived s) (sound : s.Sound)
    (done : s.exec now command = .ok (response, t)) : Archived t := by
  have records := exec_records done
  refine ⟨(exec_logs sound done).numbered h.events,
    records.correlations_unique h.correlations,?_⟩
  rcases records.checkpoints with ⟨-,same⟩ | ⟨_,_,-,-,-,_,more⟩
  · exact same ▸ h.checkpoints
  · rw [more,pairwise_append]
    refine ⟨h.checkpoints,pairwise_singleton _ _,fun c old d new owner => ?_⟩
    cases mem_singleton.mp new
    have earlier := lt_nextCheckpointSequence old
    rwa [owner] at earlier

namespace System

theorem run_records {sys : System} (start : sys.store.Sound ∧ Archived sys.store)
    (calls : List Call) : (sys.run calls).store.Sound ∧ Archived (sys.run calls).store ∧
      History sys.store (sys.run calls).store := by
  refine @Machine.run_invariant _ _ step sys (fun now => now.store.Sound ∧ Archived now.store ∧
    History sys.store now.store) (fun now call h => ⟨now.sound_step call h.1,?_⟩)
    ⟨start.1,start.2,prefix_rfl,prefix_rfl,fun _ known _ => known,[],(append_nil _).symm,by simp⟩
    calls
  unfold step
  dsimp only
  split
  · exact h.2
  · next done => exact ⟨h.2.1.exec h.1 done,h.2.2.exec h.1 done⟩

theorem durable_history (clock : Timestamp) (before after : List Call) :
    History ((init clock).run before).store ((init clock).run (before ++ after)).store ∧
      Archived ((init clock).run (before ++ after)).store := by
  have empty : Archived (init clock).store :=
    ⟨⟨.nil,fun _ listed => absurd listed not_mem_nil,fun _ listed => absurd listed not_mem_nil,
      Nat.one_pos⟩,.nil,.nil⟩
  obtain ⟨sound,recorded,-⟩ := run_records ⟨empty_sound,empty⟩ before
  obtain ⟨-,ordered,kept⟩ := run_records ⟨sound,recorded⟩ after
  have joined : (init clock).run (before ++ after) = ((init clock).run before).run after :=
    Machine.run_append _ _ _
  exact joined ▸ ⟨kept,ordered⟩

end System

end Coordinator
