import Factory.Coordinator.Effects

namespace Coordinator

open Result Table EnvironmentRow

variable {now : Timestamp} {fence : AttemptFence} {s s' : Store} {jobId : JobId}
  {generation : Nat}

namespace Store

variable {row : EnvironmentRow} {f : EnvironmentRow → EnvironmentRow}

theorem updateEnvironment_some {guard : EnvironmentRow → Bool}
    (h : s.updateEnvironment jobId guard f = (some row, s')) :
    ∃ e ∈ s.environments, e.jobId = jobId ∧ guard e = true ∧ row = f e ∧
      s' = { s with
        environments := updateWhere (fun e => e.jobId = jobId ∧ guard e) f s.environments } := by
  unfold updateEnvironment at h
  split at h
  next => cases h
  next e hfind =>
    obtain ⟨hrow,rfl⟩ := Prod.mk.inj h
    have hmem := List.mem_of_find?_eq_some hfind
    have hguard := List.find?_some hfind
    simp only [decide_eq_true_eq] at hguard
    exact ⟨e,hmem,hguard.1,hguard.2,(Option.some.inj hrow).symm,rfl⟩

theorem requireGenerationMatch_ok {updated : Option EnvironmentRow}
    {desiredState : ExecutionEnvironmentDesiredState}
    (h : s.requireGenerationMatch jobId generation updated desiredState = .ok row) :
    updated = some row := by
  cases updated with
  | none =>
    simp only [requireGenerationMatch,bind_ok] at h
    obtain ⟨_,_,_,_,_,_,hnever⟩ := h
    cases hnever
  | some e =>
    simp only [requireGenerationMatch,pure_ok] at h
    rw [h]

theorem fencedEnvironmentReport_ok
    (h : s.fencedEnvironmentReport now fence generation f = .ok (row, s')) :
    ∃ context, s.attemptContext now fence = some context ∧ context.jobStatus ≠ .cancelling ∧
      s.updateEnvironment context.jobId
        (fun e => e.generation = generation ∧ e.desiredState = .active) f = (some row, s') := by
  simp only [fencedEnvironmentReport,bind_ok,databaseSequence_ok,lockAttemptContext_ok,
    ensure_ok] at h
  obtain ⟨_,⟨_,rfl⟩,context,⟨_,hcontext⟩,_,hstatus,h⟩ := h
  refine ⟨context,hcontext,hstatus,?_⟩
  obtain ⟨environment,hmatch,heq⟩ := h
  obtain ⟨rfl,rfl⟩ := Prod.mk.inj (pure_ok.mp heq)
  exact Prod.ext (requireGenerationMatch_ok hmatch) rfl

theorem markExecutionEnvironmentReady_ok {backendRef url : String}
    (h : s.markExecutionEnvironmentReady now fence generation backendRef url = .ok (row, s')) :
    ∃ context, s.attemptContext now fence = some context ∧ context.jobStatus ≠ .cancelling ∧
      s.updateEnvironment context.jobId
        (fun e => e.generation = generation ∧ e.desiredState = .active)
        (markReady backendRef url) = (some row, s') := by
  simp only [markExecutionEnvironmentReady,bind_ok] at h
  obtain ⟨_,_,_,_,h⟩ := h
  exact fencedEnvironmentReport_ok h

theorem markExecutionEnvironmentFailed_ok {error : String}
    (h : s.markExecutionEnvironmentFailed now fence generation error = .ok (row, s')) :
    ∃ context, s.attemptContext now fence = some context ∧ context.jobStatus ≠ .cancelling ∧
      s.updateEnvironment context.jobId
        (fun e => e.generation = generation ∧ e.desiredState = .active)
        (markFailed error) = (some row, s') := by
  simp only [markExecutionEnvironmentFailed,bind_ok] at h
  obtain ⟨_,_,h⟩ := h
  exact fencedEnvironmentReport_ok h

theorem markExecutionEnvironmentReleased_ok
    (h : s.markExecutionEnvironmentReleased jobId generation = .ok (row, s')) :
    s.updateEnvironment jobId
      (fun e => e.generation = generation ∧ e.desiredState = .released)
      markReleased = (some row, s') := by
  simp only [markExecutionEnvironmentReleased,bind_ok,databaseSequence_ok] at h
  obtain ⟨_,⟨_,rfl⟩,h⟩ := h
  obtain ⟨environment,hmatch,heq⟩ := h
  obtain ⟨rfl,rfl⟩ := Prod.mk.inj (pure_ok.mp heq)
  exact Prod.ext (requireGenerationMatch_ok hmatch) rfl

theorem requestExecutionEnvironmentRelease_ok
    (h : s.requestExecutionEnvironmentRelease jobId generation = .ok (row, s')) :
    ∃ job, s.findJob jobId = some job ∧
      (job.status = .succeeded ∨ job.status = .failed ∨ job.status = .cancelled) ∧
      s.updateEnvironment jobId (fun e => e.generation = generation)
        requestRelease = (some row, s') := by
  simp only [requestExecutionEnvironmentRelease,bind_ok,databaseSequence_ok,okOr_ok,
    ensure_ok] at h
  obtain ⟨_,⟨_,rfl⟩,job,hjob,_,hterminal,h⟩ := h
  refine ⟨job,hjob,hterminal,?_⟩
  obtain ⟨environment,hmatch,heq⟩ := h
  obtain ⟨rfl,rfl⟩ := Prod.mk.inj (pure_ok.mp heq)
  exact Prod.ext (requireGenerationMatch_ok hmatch) rfl

theorem requestCancellingExecutionEnvironmentRelease_ok {row : Option EnvironmentRow}
    (h : s.requestCancellingExecutionEnvironmentRelease now fence = .ok (row, s')) :
    ∃ context, s.attemptContext now fence = some context ∧ context.jobStatus = .cancelling ∧
      (s' = s ∨ ∃ generation e, s.updateEnvironment context.jobId
        (fun e => e.generation = generation) requestRelease = (some e, s')) := by
  simp only [requestCancellingExecutionEnvironmentRelease,bind_ok,lockAttemptContext_ok,
    ensure_ok] at h
  obtain ⟨context,⟨_,hcontext⟩,_,hstatus,h⟩ := h
  refine ⟨context,hcontext,hstatus,?_⟩
  split at h
  next =>
    simp only [pure_ok,Prod.mk.injEq] at h
    exact Or.inl h.2.symm
  next current _ =>
    simp only [bind_ok,databaseSequence_ok] at h
    obtain ⟨_,⟨_,rfl⟩,h⟩ := h
    obtain ⟨environment,hmatch,heq⟩ := h
    obtain ⟨_,rfl⟩ := Prod.mk.inj (pure_ok.mp heq)
    exact Or.inr ⟨current.generation,environment,
      Prod.ext (requireGenerationMatch_ok hmatch) rfl⟩

theorem ensureExecutionEnvironment_ok {backend : String} {environmentId : ExecutionEnvironmentId}
    (h : s.ensureExecutionEnvironment now fence backend environmentId = .ok (row, s')) :
    ∃ context, s.attemptContext now fence = some context ∧ context.jobStatus ≠ .cancelling ∧
      (s' = s ∨ (∀ e ∈ s.environments, e.jobId ≠ context.jobId) ∧
        (∀ e ∈ s.environments, e.environmentId ≠ environmentId) ∧
        s' = { s with
          environments := s.environments ++
            [⟨context.jobId, environmentId, backend, 1, .active, .provisioning, none, none,
              none⟩] }) := by
  simp only [ensureExecutionEnvironment,bind_ok,lockAttemptContext_ok,ensure_ok,pure_ok,
    Prod.mk.injEq] at h
  obtain ⟨_,_,context,⟨_,hcontext⟩,_,hstatus,s1,hinsert,environment,_,_,_,_,_,_,
    rfl⟩ := h
  refine ⟨context,hcontext,hstatus,?_⟩
  unfold insertEnvironmentIfAbsent at hinsert
  split at hinsert
  next => exact Or.inl (pure_ok.mp hinsert).symm
  next habsent =>
    simp only [bind_ok,ensure_ok,pure_ok] at hinsert
    obtain ⟨_,hfresh,rfl⟩ := hinsert
    refine Or.inr ⟨?_,hfresh,rfl⟩
    intro e he hjob
    exact habsent (List.any_eq_true.mpr ⟨e,he,by simpa using hjob⟩)

theorem reserveExecutionEnvironmentLocator_ok {locator : String}
    (h : s.reserveExecutionEnvironmentLocator now fence generation locator = .ok (row, s')) :
    ∃ context, s.attemptContext now fence = some context ∧ context.jobStatus ≠ .cancelling ∧
      (s' = s ∨ s.updateEnvironment context.jobId
        (fun e => e.generation = generation ∧ e.desiredState = .active ∧ e.backendRef = none)
        ({ · with backendRef := some locator }) = (some row, s')) := by
  simp only [reserveExecutionEnvironmentLocator,bind_ok,databaseSequence_ok,
    lockAttemptContext_ok,ensure_ok,okOr_ok] at h
  obtain ⟨_,_,_,⟨_,rfl⟩,context,⟨_,hcontext⟩,_,hstatus,current,_,_,_,_,_,h⟩ := h
  refine ⟨context,hcontext,hstatus,?_⟩
  split at h
  next =>
    simp only [pure_ok,Prod.mk.injEq] at h
    exact Or.inl h.2.symm
  next =>
    simp only [bind_ok,okOr_ok,pure_ok,Prod.mk.injEq] at h
    obtain ⟨environment,hsome,rfl,rfl⟩ := h
    exact Or.inr (Prod.ext hsome rfl)

end Store

end Coordinator
