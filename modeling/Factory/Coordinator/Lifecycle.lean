import Factory.Library.Pivot
import Factory.Coordinator.Domain

namespace Coordinator

open List Or

structure OperationLife where
  state : OperationState
  maxAttempts : Nat
  attempts : List AttemptState
  deriving DecidableEq

namespace OperationLife

structure Used (o : OperationLife) (failures : Nat) (last : List AttemptState) : Prop where
  attempts : o.attempts = replicate failures .failed ++ last
  budget : failures + last.length ≤ o.maxAttempts

structure Untouched (o : OperationLife) : Prop where
  state : o.state = .ready
  attempts : o.attempts = []
  budget : 0 < o.maxAttempts

structure Waiting (o : OperationLife) (failures : Nat) : Prop where
  state : o.state = .retryWait
  used : o.Used failures []
  attempted : 0 < failures
  budget : failures < o.maxAttempts

structure Active (o : OperationLife) (failures : Nat) : Prop where
  state : o.state = .running
  used : o.Used failures [.running]

structure Done (o : OperationLife) (failures : Nat) : Prop where
  state : o.state = .succeeded
  used : o.Used failures [.succeeded]

structure Failed (o : OperationLife) (failures : Nat) : Prop where
  state : o.state = .failed
  used : o.Used failures []
  attempted : 0 < failures

structure Cancelled (o : OperationLife) (failures : Nat) : Prop where
  state : o.state = .cancelled
  used : o.Used failures [] ∨ o.Used failures [.abandoned]

structure Dropped (o : OperationLife) : Prop where
  state : o.state = .cancelled
  attempts : o.attempts = []

def become (o : OperationLife) (state : OperationState) (attempts : List AttemptState) :
    OperationLife :=
  { o with state := state, attempts := attempts }

def cancel (o : OperationLife) : OperationLife :=
  if o.state = .ready ∨ o.state = .running ∨ o.state = .retryWait then
    { o with state := .cancelled }
  else o

end OperationLife

structure JobLife where
  state : JobState
  operations : List OperationLife
  deriving DecidableEq

namespace JobLife

open OperationLife

inductive Remaining : JobState → List OperationLife → Prop where
  | queued (o : OperationLife) (rest : List OperationLife)
      (untouched : ∀ x ∈ o :: rest, x.Untouched) : Remaining .queued (o :: rest)
  | running (o : OperationLife) (rest : List OperationLife)
      (current : o.Untouched ∨ (∃ k, o.Waiting k) ∨ ∃ k, o.Active k)
      (untouched : ∀ x ∈ rest, x.Untouched) : Remaining .running (o :: rest)
  | cancelling (o : OperationLife) (rest : List OperationLife) (k : Nat) (current : o.Active k)
      (untouched : ∀ x ∈ rest, x.Untouched) : Remaining .cancelling (o :: rest)
  | succeeded : Remaining .succeeded []
  | failed (o : OperationLife) (rest : List OperationLife) (k : Nat) (current : o.Failed k)
      (untouched : ∀ x ∈ rest, x.Untouched) : Remaining .failed (o :: rest)
  | cancelled (o : OperationLife) (rest : List OperationLife) (k : Nat) (current : o.Cancelled k)
      (dropped : ∀ x ∈ rest, x.Dropped) : Remaining .cancelled (o :: rest)

structure Valid (life : JobLife) : Prop where
  split : ∃ done rest, life.operations = done ++ rest ∧ (∀ o ∈ done, ∃ k, o.Done k) ∧
    Remaining life.state rest

structure Fresh (life : JobLife) : Prop where
  state : life.state = .queued
  nonempty : life.operations ≠ []
  untouched : ∀ o ∈ life.operations, o.Untouched

inductive Step : JobLife → JobLife → Prop where
  | start (state : JobState) (before after : List OperationLife) (o : OperationLife)
      (open_job : state = .queued ∨ state = .running)
      (predecessors : ∀ x ∈ before, x.state = .succeeded)
      (eligible : o.state = .ready ∨ o.state = .retryWait)
      (budget : o.attempts.length < o.maxAttempts) :
      Step ⟨state, before ++ o :: after⟩
        ⟨.running, before ++
          o.become .running (o.attempts ++ [.running]) :: after⟩
  | resume (state : JobState) (before after : List OperationLife) (o : OperationLife)
      (open_job : state = .queued ∨ state = .running ∨ state = .cancelling)
      (running : .running ∈ o.attempts) :
      Step ⟨state, before ++ o :: after⟩
        ⟨if state = .cancelling then state else .running,
          before ++ o.become .running o.attempts :: after⟩
  | succeed (state state' : JobState) (before after : List OperationLife) (o : OperationLife)
      (pre post : List AttemptState) (open_job : state ≠ .cancelling)
      (attempts : o.attempts = pre ++ .running :: post)
      (outcome : (∀ x ∈ before ++ after, x.state = .succeeded) ∧ state' = .succeeded ∨
        (∃ x ∈ before ++ after, x.state ≠ .succeeded) ∧ state' = state) :
      Step ⟨state, before ++ o :: after⟩
        ⟨state', before ++
          o.become .succeeded (pre ++ .succeeded :: post) :: after⟩
  | retry (state : JobState) (before after : List OperationLife) (o : OperationLife)
      (pre post : List AttemptState) (open_job : state ≠ .cancelling)
      (attempts : o.attempts = pre ++ .running :: post)
      (budget : pre.length + 1 < o.maxAttempts) :
      Step ⟨state, before ++ o :: after⟩
        ⟨state, before ++
          o.become .retryWait (pre ++ .failed :: post) :: after⟩
  | fail (state : JobState) (before after : List OperationLife) (o : OperationLife)
      (pre post : List AttemptState) (open_job : state ≠ .cancelling)
      (attempts : o.attempts = pre ++ .running :: post) :
      Step ⟨state, before ++ o :: after⟩
        ⟨.failed, before ++
          o.become .failed (pre ++ .failed :: post) :: after⟩
  | requestCancel (state : JobState) (operations : List OperationLife)
      (open_job : state = .queued ∨ state = .running)
      (running : ∃ o ∈ operations, .running ∈ o.attempts) :
      Step ⟨state, operations⟩ ⟨.cancelling, operations⟩
  | cancel (state : JobState) (operations : List OperationLife)
      (open_job : state = .queued ∨ state = .running)
      (idle : ∀ o ∈ operations, .running ∉ o.attempts) :
      Step ⟨state, operations⟩ ⟨.cancelled, operations.map OperationLife.cancel⟩
  | acknowledge (before after : List OperationLife) (o : OperationLife)
      (pre post : List AttemptState) (attempts : o.attempts = pre ++ .running :: post) :
      Step ⟨.cancelling, before ++ o :: after⟩
        ⟨.cancelled, (before ++ o.become o.state (pre ++ .abandoned :: post) :: after).map
          OperationLife.cancel⟩
  | reopen (operations news : List OperationLife) (nonempty : news ≠ [])
      (untouched : ∀ o ∈ news, o.Untouched) :
      Step ⟨.succeeded, operations⟩ ⟨.queued, operations ++ news⟩

end JobLife

namespace OperationLife

variable {o : OperationLife} {k : Nat} {last pre post : List AttemptState}

theorem Used.not_running (h : o.Used k last) (hlast : .running ∉ last) :
    .running ∉ o.attempts := by
  rw [h.attempts,mem_append,mem_replicate]
  rintro (⟨_,hfailed⟩ | hmem)
  · cases hfailed
  · exact hlast hmem

theorem Untouched.not_running (h : o.Untouched) : .running ∉ o.attempts := by
  rw [h.attempts]
  exact not_mem_nil

theorem Waiting.not_running (h : o.Waiting k) : .running ∉ o.attempts :=
  h.used.not_running not_mem_nil

theorem Done.not_running (h : o.Done k) : .running ∉ o.attempts :=
  h.used.not_running (by decide)

theorem Failed.not_running (h : o.Failed k) : .running ∉ o.attempts :=
  h.used.not_running not_mem_nil

theorem Cancelled.not_running (h : o.Cancelled k) : .running ∉ o.attempts := by
  rcases h.used with hused | hused
  · exact hused.not_running not_mem_nil
  · exact hused.not_running (by decide)

theorem Dropped.not_running (h : o.Dropped) : .running ∉ o.attempts := by
  rw [h.attempts]
  exact not_mem_nil

theorem Active.running_mem (h : o.Active k) : .running ∈ o.attempts := by
  rw [h.used.attempts]
  exact mem_append_right _ (mem_singleton_self _)

theorem Active.split (h : o.Active k) (hattempts : o.attempts = pre ++ .running :: post) :
    pre = replicate k .failed ∧ post = [] := by
  have hsame : pre ++ .running :: post = replicate k .failed ++ .running :: [] :=
    hattempts.symm.trans h.used.attempts
  have hfailed : ∀ z ∈ replicate k AttemptState.failed, z ≠ .running := by
    intro z hz
    rw [eq_of_mem_replicate hz]
    decide
  obtain ⟨hpre,_,hpost⟩ :=
    Pivot.unique hfailed (fun z hz => absurd hz not_mem_nil) rfl hsame
  exact ⟨hpre,hpost⟩

theorem Active.within (h : o.Active k) : k < o.maxAttempts := h.used.budget

theorem Active.succeed (h : o.Active k) :
    (o.become .succeeded (replicate k .failed ++ [.succeeded])).Done k :=
  ⟨rfl,rfl,h.within⟩

theorem Active.failedAttempts (h : o.Active k) (state : OperationState) :
    (o.become state (replicate k .failed ++ [.failed])).Used (k + 1) [] :=
  ⟨by rw [append_nil,replicate_succ']; rfl,h.within⟩

theorem Active.cancel (h : o.Active k) :
    (o.become o.state (replicate k .failed ++ [.abandoned])).cancel.Cancelled k := by
  have hcancel : (o.become o.state (replicate k .failed ++ [.abandoned])).cancel =
      o.become .cancelled (replicate k .failed ++ [.abandoned]) :=
    if_pos (inr (inl h.state))
  rw [hcancel]
  exact ⟨rfl,inr ⟨rfl,h.within⟩⟩

theorem Waiting.cancel (h : o.Waiting k) : o.cancel.Cancelled k := by
  simp only [OperationLife.cancel,h.state,reduceCtorEq,or_true,if_true]
  exact ⟨rfl,inl ⟨h.used.attempts,h.used.budget⟩⟩

theorem Untouched.cancel (h : o.Untouched) : o.cancel.Dropped := by
  simp only [OperationLife.cancel,h.state,true_or,if_true]
  exact ⟨rfl,h.attempts⟩

theorem Dropped.cancelled (h : o.Dropped) : o.Cancelled 0 :=
  ⟨h.state,inl ⟨h.attempts,Nat.zero_le _⟩⟩

theorem Done.cancel (h : o.Done k) : o.cancel = o := by
  simp only [OperationLife.cancel,h.state,reduceCtorEq,or_self,if_false]

inductive Phase (o : OperationLife) : Prop where
  | untouched (h : o.Untouched)
  | waiting (k : Nat) (h : o.Waiting k)
  | active (k : Nat) (h : o.Active k)
  | done (k : Nat) (h : o.Done k)
  | failed (k : Nat) (h : o.Failed k)
  | cancelled (k : Nat) (h : o.Cancelled k)

theorem Phase.of_state (h : o.Phase) :
    match o.state with
    | .ready => o.Untouched
    | .retryWait => ∃ k, o.Waiting k
    | .running => ∃ k, o.Active k
    | .succeeded => ∃ k, o.Done k
    | .failed => ∃ k, o.Failed k
    | .cancelled => ∃ k, o.Cancelled k := by
  cases h with
  | untouched h =>
    rw [h.state]
    exact h
  | waiting k h | active k h | done k h | failed k h | cancelled k h =>
    rw [h.state]
    exact ⟨k,h⟩

theorem Phase.active_of_running (h : o.Phase) (hstate : o.state = .running) : ∃ k, o.Active k := by
  have phase := h.of_state
  rw [hstate] at phase
  exact phase

theorem Phase.done_of_succeeded (h : o.Phase) (hstate : o.state = .succeeded) :
    ∃ k, o.Done k := by
  have phase := h.of_state
  rw [hstate] at phase
  exact phase

theorem Used.length_le (h : o.Used k last) : o.attempts.length ≤ o.maxAttempts := by
  rw [h.attempts,length_append,length_replicate]
  exact h.budget

theorem Phase.length_le (h : o.Phase) : o.attempts.length ≤ o.maxAttempts := by
  cases h with
  | untouched h => rw [h.attempts]; exact Nat.zero_le _
  | waiting k h | active k h | done k h | failed k h => exact h.used.length_le
  | cancelled k h => rcases h.used with h | h <;> exact h.length_le

theorem Phase.untried_of_ready (h : o.Phase) (hstate : o.state = .ready) : o.attempts = [] := by
  have phase := h.of_state
  rw [hstate] at phase
  exact phase.attempts

theorem Phase.budget_of_waiting (h : o.Phase) (hstate : o.state = .retryWait) :
    0 < o.attempts.length ∧ o.attempts.length < o.maxAttempts := by
  have phase := h.of_state
  rw [hstate] at phase
  obtain ⟨k,waiting⟩ := phase
  rw [waiting.used.attempts,append_nil,length_replicate]
  exact ⟨waiting.attempted,waiting.budget⟩

theorem start_active (hattempts : o.Untouched ∨ ∃ k, o.Waiting k) :
    ∃ k, (o.become .running (o.attempts ++ [.running])).Active k := by
  rcases hattempts with h | ⟨k,h⟩
  · refine ⟨0,rfl,?_,h.budget⟩
    rw [h.attempts]
    rfl
  · refine ⟨k,rfl,?_,h.budget⟩
    rw [h.used.attempts,append_nil]
    rfl

end OperationLife

namespace JobLife

open OperationLife

variable {state : JobState} {before after operations : List OperationLife} {o : OperationLife}

theorem Remaining.head_not_succeeded (h : Remaining state (o :: after)) :
    o.state ≠ .succeeded := by
  cases h with
  | queued _ _ untouched => rw [(untouched o mem_cons_self).state]; decide
  | running _ _ current _ =>
    rcases current with h | ⟨_,h⟩ | ⟨_,h⟩ <;> rw [h.state] <;> decide
  | cancelling _ _ _ current _ | failed _ _ _ current _ | cancelled _ _ _ current _ =>
    rw [current.state]; decide

theorem Remaining.tail (h : Remaining state (o :: after)) :
    ∀ x ∈ after, x.Untouched ∨ x.Dropped := by
  intro x hx
  cases h with
  | queued _ _ untouched => exact .inl (untouched x (mem_cons_of_mem _ hx))
  | running _ _ _ untouched | cancelling _ _ _ _ untouched | failed _ _ _ _ untouched =>
    exact .inl (untouched x hx)
  | cancelled _ _ _ _ dropped => exact .inr (dropped x hx)

theorem Remaining.tail_not_running (h : Remaining state (o :: after)) :
    ∀ x ∈ after, .running ∉ x.attempts := by
  intro x hx
  rcases h.tail x hx with untouched | dropped
  · exact untouched.not_running
  · exact dropped.not_running

theorem Remaining.active (h : Remaining state (o :: after)) (hrunning : .running ∈ o.attempts) :
    (∃ k, o.Active k) ∧ (∀ x ∈ after, x.Untouched) ∧
      (state = .running ∨ state = .cancelling) := by
  cases h with
  | queued _ _ untouched =>
    exact absurd hrunning (untouched o mem_cons_self).not_running
  | running _ _ current untouched =>
    rcases current with h | ⟨k,h⟩ | ⟨k,h⟩
    · exact absurd hrunning h.not_running
    · exact absurd hrunning h.not_running
    · exact ⟨⟨k,h⟩,untouched,inl rfl⟩
  | cancelling _ _ k current untouched => exact ⟨⟨k,current⟩,untouched,inr rfl⟩
  | failed _ _ k current _ | cancelled _ _ k current _ => exact absurd hrunning current.not_running

theorem Valid.current (h : Valid ⟨state, before ++ o :: after⟩)
    (hrunning : .running ∈ o.attempts) :
    (∃ k, o.Active k) ∧ (∀ x ∈ before, ∃ k, x.Done k) ∧ (∀ x ∈ after, x.Untouched) ∧
      (state = .running ∨ state = .cancelling) := by
  obtain ⟨done,rest,hsplit,hdone,hrest⟩ := h.split
  have hquiet : ∀ x ∈ done, ¬ .running ∈ x.attempts := by
    intro x hx
    obtain ⟨k,hk⟩ := hdone x hx
    exact hk.not_running
  cases rest with
  | nil =>
    have hmem : o ∈ done := by
      rw [append_nil] at hsplit
      rw [← hsplit]
      exact mem_append_right _ mem_cons_self
    exact absurd hrunning (hquiet o hmem)
  | cons c tail =>
    obtain ⟨rfl,rfl,rfl⟩ :=
      Pivot.unique (q := fun x => .running ∈ x.attempts) hquiet hrest.tail_not_running hrunning
        hsplit
    obtain ⟨hactive,huntouched,hstate⟩ := hrest.active hrunning
    exact ⟨hactive,hdone,huntouched,hstate⟩

theorem Valid.eligible (h : Valid ⟨state, before ++ o :: after⟩)
    (hpredecessors : ∀ x ∈ before, x.state = .succeeded) (ho : o.state ≠ .succeeded) :
    (∀ x ∈ before, ∃ k, x.Done k) ∧ Remaining state (o :: after) := by
  obtain ⟨done,rest,hsplit,hdone,hrest⟩ := h.split
  have hsucceeded : ∀ x ∈ done, x.state = .succeeded := by
    intro x hx
    obtain ⟨k,hk⟩ := hdone x hx
    exact hk.state
  cases rest with
  | nil =>
    have hmem : o ∈ done := by
      rw [append_nil] at hsplit
      rw [← hsplit]
      exact mem_append_right _ mem_cons_self
    exact absurd (hsucceeded o hmem) ho
  | cons c tail =>
    obtain ⟨rfl,rfl,rfl⟩ :=
      Pivot.frontier hpredecessors ho hsucceeded hrest.head_not_succeeded hsplit
    exact ⟨hdone,hrest⟩

theorem Remaining.startable (h : Remaining state (o :: after))
    (hopen : state = .queued ∨ state = .running)
    (heligible : o.state = .ready ∨ o.state = .retryWait) :
    (o.Untouched ∨ ∃ k, o.Waiting k) ∧ ∀ x ∈ after, x.Untouched := by
  cases h with
  | queued _ _ untouched =>
    exact ⟨inl (untouched o mem_cons_self),
      fun x hx => untouched x (mem_cons_of_mem _ hx)⟩
  | running _ _ current untouched =>
    refine ⟨?_,untouched⟩
    rcases current with h | h | ⟨k,h⟩
    · exact inl h
    · exact inr h
    · rw [h.state] at heligible
      rcases heligible with hready | hwait
      · cases hready
      · cases hwait
  | cancelling | failed | cancelled => rcases hopen with h | h <;> cases h

variable {rest : List OperationLife}

theorem Remaining.cancel (h : Remaining state rest) (hopen : state = .queued ∨ state = .running)
    (hidle : ∀ x ∈ rest, .running ∉ x.attempts) :
    Remaining .cancelled (rest.map OperationLife.cancel) := by
  have drop : ∀ xs : List OperationLife, (∀ x ∈ xs, x.Untouched) →
      ∀ y ∈ xs.map OperationLife.cancel, y.Dropped := by
    intro xs hxs y hy
    obtain ⟨x,hx,rfl⟩ := mem_map.mp hy
    exact (hxs x hx).cancel
  cases h with
  | queued o rest untouched =>
    exact .cancelled o.cancel _ 0 (untouched o mem_cons_self).cancel.cancelled
      (drop rest (fun x hx => untouched x (mem_cons_of_mem _ hx)))
  | running o rest current untouched =>
    rcases current with h | ⟨k,h⟩ | ⟨k,h⟩
    · exact .cancelled o.cancel _ 0 h.cancel.cancelled (drop rest untouched)
    · exact .cancelled o.cancel _ k h.cancel (drop rest untouched)
    · exact absurd h.running_mem (hidle o mem_cons_self)
  | cancelling | succeeded | failed | cancelled => rcases hopen with h | h <;> cases h

variable {done : List OperationLife}

theorem map_cancel_done (h : ∀ o ∈ done, ∃ k, o.Done k) :
    done.map OperationLife.cancel = done := by
  conv_rhs => rw [← map_id done]
  refine map_congr_left ?_
  intro o ho
  obtain ⟨k,hk⟩ := h o ho
  exact hk.cancel

theorem Valid.of_remaining (hdone : ∀ o ∈ done, ∃ k, o.Done k) (hrest : Remaining state rest) :
    Valid ⟨state, done ++ rest⟩ :=
  ⟨done,rest,rfl,hdone,hrest⟩

theorem remaining_of_untouched (hafter : after ≠ []) (h : ∀ x ∈ after, x.Untouched) :
    Remaining .running after := by
  cases after with
  | nil => exact absurd rfl hafter
  | cons x rest =>
    exact .running x rest (inl (h x mem_cons_self))
      (fun y hy => h y (mem_cons_of_mem _ hy))

theorem Valid.succeed {k : Nat} (hstate : state = .running)
    (hactive : o.Active k) (hbefore : ∀ x ∈ before, ∃ k, x.Done k)
    (hafter : ∀ x ∈ after, x.Untouched) {state' : JobState}
    (outcome : (∀ x ∈ before ++ after, x.state = .succeeded) ∧ state' = .succeeded ∨
      (∃ x ∈ before ++ after, x.state ≠ .succeeded) ∧ state' = state) :
    Valid ⟨state', before ++
      o.become .succeeded (replicate k .failed ++ [.succeeded]) :: after⟩ := by
  have hdone : ∀ x ∈ before ++
      [o.become .succeeded (replicate k .failed ++ [.succeeded])], ∃ k, x.Done k := by
    intro x hx
    rcases mem_append.mp hx with hx | hx
    · exact hbefore x hx
    · rw [mem_singleton.mp hx]
      exact ⟨k,hactive.succeed⟩
  rw [append_cons]
  rcases outcome with ⟨hall,rfl⟩ | ⟨⟨x,hx,hne⟩,rfl⟩
  · have hnil : after = [] := by
      refine eq_nil_iff_forall_not_mem.mpr ?_
      intro x hx
      have hready := (hafter x hx).state
      rw [hall x (mem_append_right _ hx)] at hready
      cases hready
    rw [hnil]
    exact Valid.of_remaining hdone .succeeded
  · rw [hstate]
    refine Valid.of_remaining hdone (remaining_of_untouched ?_ hafter)
    rintro rfl
    rw [append_nil] at hx
    obtain ⟨j,hj⟩ := hbefore x hx
    exact hne hj.state

variable {life : JobLife}

theorem Fresh.valid (h : Fresh life) : Valid life := by
  obtain ⟨state,operations⟩ := life
  cases operations with
  | nil => exact absurd rfl h.nonempty
  | cons o rest =>
    obtain rfl : state = .queued := h.state
    exact ⟨[],o :: rest,rfl,by simp,.queued o rest h.untouched⟩

theorem Valid.step {life' : JobLife} (h : Valid life) (hstep : Step life life') :
    Valid life' := by
  cases hstep with
  | start state before after o open_job predecessors eligible budget =>
    have hne : o.state ≠ .succeeded := by
      rcases eligible with h | h <;> rw [h] <;> decide
    obtain ⟨hdone,hrest⟩ := h.eligible predecessors hne
    obtain ⟨hcurrent,huntouched⟩ := hrest.startable open_job eligible
    exact Valid.of_remaining hdone
      (.running _ _ (inr (inr (start_active hcurrent))) huntouched)
  | resume state before after o open_job running =>
    obtain ⟨⟨k,hactive⟩,hdone,huntouched,hstate⟩ := h.current running
    have hsame : o.become .running o.attempts = o := by
      rw [← hactive.state]
      rfl
    rw [hsame]
    rcases hstate with rfl | rfl
    · exact Valid.of_remaining hdone (.running o after (inr (inr ⟨k,hactive⟩)) huntouched)
    · exact Valid.of_remaining hdone (.cancelling o after k hactive huntouched)
  | succeed state state' before after o pre post open_job attempts outcome =>
    obtain ⟨⟨k,hactive⟩,hdone,huntouched,hstate⟩ :=
      h.current (by rw [attempts]; exact mem_append_right _ mem_cons_self)
    obtain ⟨rfl,rfl⟩ := hactive.split attempts
    exact Valid.succeed (hstate.resolve_right open_job) hactive hdone huntouched outcome
  | retry state before after o pre post open_job attempts budget =>
    obtain ⟨⟨k,hactive⟩,hdone,huntouched,hstate⟩ :=
      h.current (by rw [attempts]; exact mem_append_right _ mem_cons_self)
    obtain ⟨rfl,rfl⟩ := hactive.split attempts
    rw [hstate.resolve_right open_job]
    rw [length_replicate] at budget
    exact Valid.of_remaining hdone (.running _ _ (inr (inl ⟨k + 1,rfl,
      hactive.failedAttempts .retryWait,Nat.succ_pos k,budget⟩)) huntouched)
  | fail state before after o pre post open_job attempts =>
    obtain ⟨⟨k,hactive⟩,hdone,huntouched,_⟩ :=
      h.current (by rw [attempts]; exact mem_append_right _ mem_cons_self)
    obtain ⟨rfl,rfl⟩ := hactive.split attempts
    exact Valid.of_remaining hdone (.failed _ _ (k + 1) ⟨rfl,hactive.failedAttempts .failed,
      Nat.succ_pos k⟩ huntouched)
  | requestCancel state operations open_job running =>
    obtain ⟨o,ho,hrunning⟩ := running
    obtain ⟨before,after,rfl⟩ := append_of_mem ho
    obtain ⟨⟨k,hactive⟩,hdone,huntouched,_⟩ := h.current hrunning
    exact Valid.of_remaining hdone (.cancelling o after k hactive huntouched)
  | cancel state operations open_job idle =>
    obtain ⟨done,rest,hsplit,hdone,hrest⟩ := h.split
    obtain rfl : operations = done ++ rest := hsplit
    rw [map_append,map_cancel_done hdone]
    exact Valid.of_remaining hdone
      (hrest.cancel open_job (fun x hx => idle x (mem_append_right _ hx)))
  | acknowledge before after o pre post attempts =>
    obtain ⟨⟨k,hactive⟩,hdone,huntouched,_⟩ :=
      h.current (by rw [attempts]; exact mem_append_right _ mem_cons_self)
    obtain ⟨rfl,rfl⟩ := hactive.split attempts
    rw [map_append,map_cancel_done hdone]
    refine Valid.of_remaining hdone (.cancelled _ _ k hactive.cancel ?_)
    intro y hy
    obtain ⟨x,hx,rfl⟩ := mem_map.mp hy
    exact (huntouched x hx).cancel
  | reopen operations news nonempty untouched =>
    obtain ⟨done,rest,hsplit,hdone,hrest⟩ := h.split
    obtain rfl : operations = done ++ rest := hsplit
    cases hrest
    rw [append_nil]
    refine Valid.of_remaining hdone ?_
    cases news with
    | nil => exact absurd rfl nonempty
    | cons o rest => exact .queued o rest untouched

theorem Remaining.tail_untried (h : Remaining state (o :: after)) :
    ∀ x ∈ after, x.attempts = [] := by
  intro x hx
  rcases h.tail x hx with untouched | dropped
  · exact untouched.attempts
  · exact dropped.attempts

theorem Remaining.phase (h : Remaining state rest) (ho : o ∈ rest) :
    o.Phase ∧ (o.state = .failed → state = .failed) := by
  have fresh : ∀ {x : OperationLife}, x.Untouched →
      x.Phase ∧ (x.state = .failed → state = .failed) :=
    fun h => ⟨.untouched h,fun hfailed => by rw [h.state] at hfailed; cases hfailed⟩
  cases h with
  | queued c tail untouched => exact fresh (untouched o ho)
  | running c tail current untouched =>
    rcases mem_cons.mp ho with rfl | ho
    · rcases current with h | ⟨k,h⟩ | ⟨k,h⟩
      · exact fresh h
      · exact ⟨.waiting k h,fun hfailed => by rw [h.state] at hfailed; cases hfailed⟩
      · exact ⟨.active k h,fun hfailed => by rw [h.state] at hfailed; cases hfailed⟩
    · exact fresh (untouched o ho)
  | cancelling c tail k current untouched =>
    rcases mem_cons.mp ho with rfl | ho
    · exact ⟨.active k current,fun hfailed => by rw [current.state] at hfailed; cases hfailed⟩
    · exact fresh (untouched o ho)
  | succeeded => exact absurd ho not_mem_nil
  | failed c tail k current untouched =>
    rcases mem_cons.mp ho with rfl | ho
    · exact ⟨.failed k current,fun _ => rfl⟩
    · exact ⟨.untouched (untouched o ho),fun _ => rfl⟩
  | cancelled c tail k current dropped =>
    rcases mem_cons.mp ho with rfl | ho
    · exact ⟨.cancelled k current,fun hfailed => by rw [current.state] at hfailed; cases hfailed⟩
    · have hdropped := (dropped o ho).cancelled
      exact ⟨.cancelled 0 hdropped,fun hfailed => by
        rw [hdropped.state] at hfailed; cases hfailed⟩

theorem Valid.phase (h : Valid life) (ho : o ∈ life.operations) :
    o.Phase ∧ (o.state = .failed → life.state = .failed) := by
  obtain ⟨done,rest,hsplit,hdone,hrest⟩ := h.split
  rw [hsplit] at ho
  rcases mem_append.mp ho with ho | ho
  · obtain ⟨k,hk⟩ := hdone o ho
    exact ⟨.done k hk,fun hfailed => by rw [hk.state] at hfailed; cases hfailed⟩
  · exact hrest.phase ho

theorem Valid.attempted (h : Valid ⟨state, before ++ o :: after⟩) (ho : o.attempts ≠ []) :
    ∀ x ∈ before, ∃ k, x.Done k := by
  obtain ⟨done,rest,hsplit,hdone,hrest⟩ := h.split
  rcases append_eq_append_iff.mp hsplit with ⟨middle,hdoneSplit,_⟩ | ⟨middle,hbefore,hrestSplit⟩
  · intro x hx
    refine hdone x ?_
    rw [hdoneSplit]
    exact mem_append_left _ hx
  · cases middle with
    | nil =>
      rw [hbefore,append_nil]
      exact hdone
    | cons c tail =>
      rw [hrestSplit] at hrest
      exact absurd (hrest.tail_untried o (mem_append_right _ mem_cons_self)) ho

theorem Valid.succeeded_iff (h : Valid life) :
    life.state = .succeeded ↔ ∀ o ∈ life.operations, o.state = .succeeded := by
  obtain ⟨done,rest,hsplit,hdone,hrest⟩ := h.split
  rw [hsplit]
  constructor
  · intro hstate
    rw [hstate] at hrest
    cases hrest
    intro o ho
    rw [append_nil] at ho
    obtain ⟨k,hk⟩ := hdone o ho
    exact hk.state
  · intro hall
    cases rest with
    | nil =>
      generalize life.state = state at hrest
      cases hrest
      rfl
    | cons c tail =>
      exact absurd (hall c (mem_append_right _ mem_cons_self))
        hrest.head_not_succeeded

theorem Valid.failed_iff (h : Valid life) :
    life.state = .failed ↔ ∃ o ∈ life.operations, o.state = .failed := by
  obtain ⟨done,rest,hsplit,hdone,hrest⟩ := h.split
  rw [hsplit]
  constructor
  · intro hstate
    rw [hstate] at hrest
    cases hrest with
    | failed c tail k current _ =>
      exact ⟨c,mem_append_right _ mem_cons_self,current.state⟩
  · rintro ⟨o,ho,hfailed⟩
    rw [← hsplit] at ho
    exact (h.phase ho).2 hfailed

theorem Valid.cancelling_active (h : Valid life) (hstate : life.state = .cancelling) :
    ∃ o ∈ life.operations, .running ∈ o.attempts := by
  obtain ⟨done,rest,hsplit,_,hrest⟩ := h.split
  rw [hstate] at hrest
  cases hrest with
  | cancelling c tail k current _ =>
    refine ⟨c,?_,current.running_mem⟩
    rw [hsplit]
    exact mem_append_right _ mem_cons_self

theorem Valid.cancelled_closed (h : Valid life) (hstate : life.state = .cancelled) :
    ∀ o ∈ life.operations, o.state = .succeeded ∨ o.state = .cancelled := by
  obtain ⟨done,rest,hsplit,hdone,hrest⟩ := h.split
  rw [hstate] at hrest
  cases hrest with
  | cancelled c tail k current dropped =>
    intro o ho
    rw [hsplit] at ho
    rcases mem_append.mp ho with ho | ho
    · obtain ⟨j,hj⟩ := hdone o ho
      exact inl hj.state
    · rcases mem_cons.mp ho with rfl | ho
      · exact inr current.state
      · exact inr (dropped o ho).state

end JobLife

end Coordinator
