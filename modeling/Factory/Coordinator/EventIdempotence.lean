import Factory.Coordinator.EventAppends

namespace Coordinator

open Result Table List AppendSystem EventLog

def AppendStep.call : AppendStep → Option Nat
  | .proceed id | .lose id => some id
  | _ => none

def AppendCall.Uses (jobId : JobId) (key : Option String) (call : AppendCall) : Prop :=
  key.isSome = true ∧ call.context.jobId = jobId ∧ call.event.deduplicationKey = key

namespace AppendSystem

variable {sys : AppendSystem}

structure Idempotent (sys : AppendSystem) : Prop where
  unique : sys.store.events.Pairwise JobEventRow.Apart
  returns : ∀ r ∈ sys.replies, ∀ e ∈ sys.store.events,
    e.Occupies r.context.jobId r.event.deduplicationKey → e.Carries r.event → r.outcome = .ok e
  rejects : ∀ r ∈ sys.replies, ∀ e ∈ sys.store.events,
    e.Occupies r.context.jobId r.event.deduplicationKey → ¬ e.Carries r.event →
      r.outcome = (validateAttemptEvent r.event).bind fun _ => .error (reusedKey r.event)
  settles : ∀ r ∈ sys.replies, validateAttemptEvent r.event = .ok () →
    ∀ key ∈ r.event.deduplicationKey,
      ∃ e ∈ sys.store.events, e.Occupies r.context.jobId (some key)
  keyless : ∀ r ∈ sys.replies, validateAttemptEvent r.event = .ok () →
    r.event.deduplicationKey = none →
      ∃ sequence, r.newRow sequence ∈ sys.store.events ∧ r.outcome = .ok (r.newRow sequence)

variable {jobId : JobId} {key : Option String} {r : AppendReply} {c : AppendCall}

theorem Sound.same_slot (h : sys.Sound) {a b : JobEventRow} (ha : a ∈ sys.store.events)
    (hb : b ∈ sys.store.events) (slot : a.Occupies jobId key) (other : b.Occupies jobId key) :
    a = b := by
  by_contra ne
  obtain ⟨keyed,job,same⟩ := slot
  refine h.unique.forall ha hb ne ⟨same ▸ keyed,?_,?_⟩
  · exact other.2.1.trans job.symm
  · exact other.2.2.trans same.symm

theorem Sound.answers (h : sys.Sound) (member : r ∈ sys.replies) {e : JobEventRow}
    (stored : e ∈ sys.store.events) (slot : e.Occupies r.context.jobId r.event.deduplicationKey) :
    e.Carries r.event ∧ r.outcome = .ok e ∨
      ¬ e.Carries r.event ∧ r.outcome =
        (validateAttemptEvent r.event).bind fun _ => .error (reusedKey r.event) := by
  have sound := h.replies r member
  unfold AppendReply.Sound at sound
  split at sound
  · next row outcome =>
    obtain ⟨kept,carries,own⟩ := sound
    have occupies : row.Occupies r.context.jobId r.event.deduplicationKey := by
      rcases own with occupies | ⟨sequence,rfl⟩
      · exact occupies
      · exact ⟨slot.1,rfl,rfl⟩
    cases h.same_slot kept stored occupies slot
    exact .inl ⟨carries,outcome⟩
  · next error outcome =>
    rcases sound with invalid | ⟨valid,reused,existing,kept,occupies,differs⟩
    · refine .inr ⟨fun carries => ?_,by rw [outcome,invalid]; rfl⟩
      have valid := h.valid e stored (slot.2.2 ▸ slot.1)
      rw [carries.1,carries.2,slot.2.2,invalid] at valid
      cases valid
    · cases h.same_slot kept stored occupies slot
      exact .inr ⟨differs,by rw [outcome,valid,reused]; rfl⟩

theorem Sound.idempotent (h : sys.Sound) : sys.Idempotent where
  unique := h.unique
  returns := by
    intro r member e stored slot carries
    rcases h.answers member stored slot with ⟨-,returned⟩ | ⟨differs,-⟩
    · exact returned
    · exact absurd carries differs
  rejects := by
    intro r member e stored slot differs
    rcases h.answers member stored slot with ⟨carries,-⟩ | ⟨-,rejected⟩
    · exact absurd carries differs
    · exact rejected
  settles := by
    intro r member valid key keyed
    have sound := h.replies r member
    unfold AppendReply.Sound at sound
    rw [valid,Option.mem_def.mp keyed] at sound
    split at sound
    · obtain ⟨kept,_,occupies | ⟨sequence,rfl⟩⟩ := sound
      · exact ⟨_,kept,occupies⟩
      · exact ⟨_,kept,rfl,rfl,keyed⟩
    · rcases sound with invalid | ⟨-,-,existing,kept,occupies,-⟩
      · cases invalid
      · exact ⟨existing,kept,occupies⟩
  keyless := by
    intro r member valid keyless
    have sound := h.replies r member
    unfold AppendReply.Sound at sound
    rw [valid] at sound
    split at sound
    · next row outcome =>
      obtain ⟨kept,_,occupies | ⟨sequence,rfl⟩⟩ := sound
      · rw [keyless] at occupies
        cases occupies.1
      · exact ⟨sequence,kept,outcome⟩
    · rcases sound with invalid | ⟨-,-,existing,kept,occupies,-⟩
      · cases invalid
      · rw [keyless] at occupies
        cases occupies.1

structure Contained (sys : AppendSystem) (input : AppendStep) : Prop where
  stored : (sys.step input).store.events = sys.store.events ∨
    (∃ call ∈ sys.calls, input = .proceed call.id ∧ ∃ sequence,
      (sys.step input).store.events = sys.store.events ++ [call.newRow sequence] ∧
      (sys.step input).replies = sys.replies ++
        [⟨call.context, call.fence, call.event, .ok (call.newRow sequence)⟩]) ∨
    ∃ event, input = .appendJobEvent event ∧ (sys.step input).store.events =
      sys.store.events ++ [jobEventRow event sys.store.nextSequence]
  rejected : ∀ r error, (sys.step input).replies = sys.replies ++ [r] →
    r.outcome = .error error →
      ∃ sequence, (sys.step input).store = { sys.store with nextSequence := sequence }
  others : ∀ c ∈ sys.calls, input.call ≠ some c.id → c ∈ (sys.step input).calls
  unaffected : ∀ jobId key, (∀ c ∈ sys.calls, input.call = some c.id → ¬ c.Uses jobId key) →
    deduplicated jobId key (sys.step input).store.events =
        deduplicated jobId key sys.store.events ∧
      ((sys.step input).Waits jobId key ↔ sys.Waits jobId key)

inductive Progress (sys : AppendSystem) (call : AppendCall) : AppendSystem → Prop where
  | waited : Progress sys call sys
  | advanced (sequence : Nat) (stage : AppendStage) :
      Progress sys call
        (advance call stage { sys with store := { sys.store with nextSequence := sequence } })
  | refused (error : CoordinatorError) : Progress sys call (sys.reply call (.error error))
  | returned (row : JobEventRow) : Progress sys call (sys.reply call (.ok row))
  | committed (row : JobEventRow) (stage : call.stage = .inserted row) :
      Progress sys call ((sys.push row).reply call (.ok row))

theorem proceed_progress (sys : AppendSystem) (call : AppendCall) :
    Progress sys call (sys.proceed call) := by
  cases stage : call.stage with
  | locked =>
    simp only [proceed,stage]
    split
    · exact .refused _
    · exact .advanced _ _
  | drawn sequence =>
    simp only [proceed,stage]
    split
    · exact .waited
    · split
      · exact .advanced sys.store.nextSequence _
      · exact .advanced sys.store.nextSequence _
  | inserted row =>
    simp only [proceed,stage]
    exact .committed row stage
  | conflicted =>
    simp only [proceed,stage]
    split
    · exact .refused _
    · split
      · exact .advanced sys.store.nextSequence _
      · exact .refused _
  | found existing =>
    simp only [proceed,stage]
    exact .returned existing

theorem not_grown {replies : List AppendReply} {p : Prop} (h : replies = replies ++ [r]) : p := by
  have lengths := congrArg length h
  simp at lengths

theorem step_stored (h : sys.Sound) (input : AppendStep) :
    (sys.step input).store.events = sys.store.events ∨
      (∃ call ∈ sys.calls, input = .proceed call.id ∧ ∃ sequence,
        (sys.step input).store.events = sys.store.events ++ [call.newRow sequence] ∧
        (sys.step input).replies = sys.replies ++
          [⟨call.context, call.fence, call.event, .ok (call.newRow sequence)⟩]) ∨
      ∃ event, input = .appendJobEvent event ∧ (sys.step input).store.events =
        sys.store.events ++ [jobEventRow event sys.store.nextSequence] := by
  cases input with
  | begin id now fence event =>
    refine .inl ?_
    simp only [step,begin]
    split <;> rfl
  | proceed id =>
    simp only [step]
    split
    · exact .inl rfl
    · next call found =>
      obtain ⟨member,rfl⟩ := find_some found
      have progress := proceed_progress sys call
      generalize sys.proceed call = t at progress ⊢
      cases progress with
      | waited | advanced | refused | returned => exact .inl rfl
      | committed row stage =>
        have sound := h.calls call member
        simp only [AppendCall.Sound,stage] at sound
        obtain ⟨_,sequence,rfl⟩ := sound
        exact .inr (.inl ⟨call,member,rfl,sequence,rfl,rfl⟩)
  | lose id => exact .inl rfl
  | appendJobEvent event =>
    rcases @appendJobEvent_events sys event with same | ⟨events,_,_⟩
    · exact .inl (by rw [step,same])
    · exact .inr (.inr ⟨event,rfl,events⟩)
  | other store => exact .inl rfl

theorem step_rejected (input : AppendStep) {error : CoordinatorError}
    (replied : (sys.step input).replies = sys.replies ++ [r]) (failed : r.outcome = .error error) :
    ∃ sequence, (sys.step input).store = { sys.store with nextSequence := sequence } := by
  cases input with
  | begin id now fence event =>
    simp only [step,begin] at replied
    split at replied <;> exact not_grown replied
  | proceed id =>
    simp only [step] at replied ⊢
    split at replied
    · exact not_grown replied
    · next call found =>
      have progress := proceed_progress sys call
      generalize sys.proceed call = t at progress replied
      cases progress with
      | waited | advanced => exact not_grown replied
      | refused error => exact ⟨sys.store.nextSequence,rfl⟩
      | returned | committed =>
        cases singleton_inj.mp (append_cancel_left replied)
        cases failed
  | lose | other => exact not_grown replied
  | appendJobEvent event =>
    rcases @appendJobEvent_events sys event with same | ⟨_,_,replies⟩
    · rw [step,same] at replied
      exact not_grown replied
    · rw [step,replies] at replied
      exact not_grown replied

theorem step_others (input : AppendStep) (member : c ∈ sys.calls) (other : input.call ≠ some c.id) :
    c ∈ (sys.step input).calls := by
  cases input with
  | begin id now fence event =>
    simp only [step,begin]
    split
    · exact mem_append_left _ member
    · exact member
  | proceed id =>
    simp only [step]
    split
    · exact member
    · next call found =>
      obtain ⟨_,rfl⟩ := find_some found
      have kept : c ∈ sys.calls.filter (fun c => c.id ≠ call.id) :=
        mem_filter.mpr ⟨member,decide_eq_true fun same => other (congrArg some same.symm)⟩
      have progress := proceed_progress sys call
      generalize sys.proceed call = t at progress ⊢
      cases progress with
      | waited => exact member
      | advanced => exact mem_append_left _ kept
      | refused | returned | committed => exact kept
  | lose id =>
    exact mem_filter.mpr
      ⟨member,decide_eq_true fun same => other (congrArg some same.symm)⟩
  | appendJobEvent event =>
    rcases @appendJobEvent_events sys event with same | ⟨_,calls,_⟩
    · rw [step,same]
      exact member
    · rw [step,calls]
      exact member
  | other store => exact member

theorem step_came (input : AppendStep) (member : c ∈ (sys.step input).calls) :
    c ∈ sys.calls ∨ c.uncommitted = none ∨ ∃ d ∈ sys.calls, input.call = some d.id ∧
      c.context = d.context ∧ c.event = d.event := by
  cases input with
  | begin id now fence event =>
    simp only [step,begin] at member
    split at member
    · rcases mem_append.mp member with old | new
      · exact .inl old
      · cases mem_singleton.mp new
        exact .inr (.inl rfl)
    · exact .inl member
  | proceed id =>
    simp only [step] at member
    split at member
    · exact .inl member
    · next call found =>
      obtain ⟨own,rfl⟩ := find_some found
      have progress := proceed_progress sys call
      generalize sys.proceed call = t at progress member
      cases progress with
      | waited => exact .inl member
      | advanced sequence stage =>
        rcases mem_append.mp member with old | new
        · exact .inl (mem_of_mem_filter old)
        · cases mem_singleton.mp new
          exact .inr (.inr ⟨call,own,rfl,rfl,rfl⟩)
      | refused | returned | committed => exact .inl (mem_of_mem_filter member)
  | lose id => exact .inl (mem_of_mem_filter member)
  | appendJobEvent event =>
    rcases @appendJobEvent_events sys event with same | ⟨_,calls,_⟩
    · rw [step,same] at member
      exact .inl member
    · rw [step,calls] at member
      exact .inl member
  | other store => exact .inl member

theorem Sound.uses (h : sys.Sound) (member : c ∈ sys.calls) {row : JobEventRow}
    (inserted : row ∈ c.uncommitted) :
    row.Occupies jobId key ↔ c.Uses jobId key := by
  have sound := h.calls c member
  unfold AppendCall.uncommitted at inserted
  split at inserted
  · next stage =>
    cases Option.mem_some_iff.mp inserted
    simp only [AppendCall.Sound,stage] at sound
    obtain ⟨_,sequence,rfl⟩ := sound
    exact Iff.rfl
  · cases inserted

theorem step_waits (h : sys.Sound) (input : AppendStep)
    (idle : ∀ c ∈ sys.calls, input.call = some c.id → ¬ c.Uses jobId key) :
    (sys.step input).Waits jobId key ↔ sys.Waits jobId key := by
  constructor
  · rintro ⟨c,member,row,inserted,slot⟩
    have uses := ((h.step input).uses member inserted).mp slot
    rcases step_came input member with old | none | ⟨d,own,acted,context,event⟩
    · exact ⟨c,old,row,inserted,slot⟩
    · rw [none] at inserted
      cases inserted
    · refine absurd ?_ (idle d own acted)
      rwa [AppendCall.Uses,← context,← event]
  · rintro ⟨c,member,row,inserted,slot⟩
    have uses := (h.uses member inserted).mp slot
    exact ⟨c,step_others input member fun acted => idle c member acted uses,row,inserted,slot⟩

theorem deduplicated_concat {events : List JobEventRow} {row : JobEventRow}
    (apart : ¬ row.Occupies jobId key) :
    deduplicated jobId key (events ++ [row]) = deduplicated jobId key events := by
  unfold deduplicated
  split
  · next keyed =>
    have skipped : ([row].find? fun e => e.jobId = jobId ∧ e.deduplicationKey = key) = none := by
      refine find?_eq_none.mpr fun e member same => apart ⟨keyed,?_⟩
      cases mem_singleton.mp member
      exact of_decide_eq_true same
    rw [find?_append,skipped,Option.or_none]
  · rfl

theorem step_deduplicated (h : sys.Sound) (input : AppendStep)
    (idle : ∀ c ∈ sys.calls, input.call = some c.id → ¬ c.Uses jobId key) :
    deduplicated jobId key (sys.step input).store.events =
      deduplicated jobId key sys.store.events := by
  rcases step_stored h input with same | ⟨call,member,rfl,sequence,events,-⟩ | ⟨event,-,events⟩
  · rw [same]
  · rw [events]
    exact deduplicated_concat fun slot => idle call member rfl slot
  · rw [events]
    refine deduplicated_concat fun slot => ?_
    obtain ⟨keyed,_,rfl⟩ := slot
    cases keyed

theorem Sound.contained (h : sys.Sound) (input : AppendStep) : sys.Contained input where
  stored := step_stored h input
  rejected := fun _ _ replied failed => step_rejected input replied failed
  others := fun _ member other => step_others input member other
  unaffected := fun _ _ idle => ⟨step_deduplicated h input idle,step_waits h input idle⟩

def callSteps (id : Nat) (now : Timestamp) (fence : AttemptFence) (event : NewAttemptEvent) :
    List AppendStep :=
  .begin id now fence event :: replicate 4 (.proceed id)

def Answers (sys : AppendSystem) (context : AttemptContextRow) (fence : AttemptFence)
    (event : NewAttemptEvent) (t : AppendSystem) : Prop :=
  t.calls = sys.calls ∧
    match sys.store.insertAttemptEvent context fence event with
    | .ok (row, store) =>
      t.store = store ∧ t.replies = sys.replies ++ [⟨context, fence, event, .ok row⟩]
    | .error error =>
      (∃ sequence, t.store = { sys.store with nextSequence := sequence }) ∧
        t.replies = sys.replies ++ [⟨context, fence, event, .error error⟩]

section Alone

variable {store : Store} {calls : List AppendCall} {replies : List AppendReply}
  {call : AppendCall}

theorem fresh_filter (fresh : ∀ c ∈ calls, c.id ≠ call.id) :
    (calls ++ [call]).filter (fun c => c.id ≠ call.id) = calls := by
  rw [filter_append,filter_eq_self.mpr fun c member => decide_eq_true (fresh c member)]
  simp

theorem advance_last (fresh : ∀ c ∈ calls, c.id ≠ call.id) (stage : AppendStage) :
    advance call stage ⟨store, calls ++ [call], replies⟩ =
      ⟨store, calls ++ [{ call with stage := stage }], replies⟩ := by
  rw [advance,fresh_filter fresh]

theorem reply_last (fresh : ∀ c ∈ calls, c.id ≠ call.id) (outcome : Outcome JobEventRow) :
    reply call outcome ⟨store, calls ++ [call], replies⟩ =
      ⟨store, calls, replies ++ [⟨call.context, call.fence, call.event, outcome⟩]⟩ := by
  rw [reply,close,fresh_filter fresh]

variable {id : Nat}

theorem find_fresh (fresh : ∀ c ∈ calls, c.id ≠ id) :
    calls.find? (fun c => c.id = id) = none :=
  find?_eq_none.mpr fun c member same => fresh c member (of_decide_eq_true same)

theorem step_last (own : call.id = id) (fresh : ∀ c ∈ calls, c.id ≠ id) :
    step ⟨store, calls ++ [call], replies⟩ (.proceed id) =
      proceed call ⟨store, calls ++ [call], replies⟩ := by
  have found : find id ⟨store,calls ++ [call],replies⟩ = some call := by
    rw [find,find?_append,find_fresh fresh]
    simp [own]
  rw [step,found]

theorem run_last (own : call.id = id) (fresh : ∀ c ∈ calls, c.id ≠ id) (n : Nat) :
    Machine.run step ⟨store, calls ++ [call], replies⟩ (replicate (n + 1) (.proceed id)) =
      Machine.run step (proceed call ⟨store, calls ++ [call], replies⟩)
        (replicate n (.proceed id)) := by
  rw [replicate_succ,Machine.run,foldl_cons,step_last own fresh]
  rfl

theorem run_gone (fresh : ∀ c ∈ calls, c.id ≠ id) (n : Nat) :
    Machine.run step ⟨store, calls, replies⟩ (replicate n (.proceed id)) =
      ⟨store, calls, replies⟩ := by
  have absent : find id ⟨store,calls,replies⟩ = none := find_fresh fresh
  induction n with
  | zero => rfl
  | succ n ih =>
    rw [replicate_succ,Machine.run,foldl_cons,step,absent]
    exact ih

theorem not_waits_last {jobId : JobId} {key : Option String} (idle : call.uncommitted = none)
    (free : ¬ sys.Waits jobId key) :
    ¬ Waits jobId key ⟨store, sys.calls ++ [call], replies⟩ := by
  rintro ⟨c,member,row,inserted,slot⟩
  rcases mem_append.mp member with old | new
  · exact free ⟨c,old,row,inserted,slot⟩
  · cases mem_singleton.mp new
    rw [idle] at inserted
    cases inserted

end Alone

theorem insertAttemptEvent_eq (s : Store) (context : AttemptContextRow) (fence : AttemptFence)
    (event : NewAttemptEvent) :
    s.insertAttemptEvent context fence event =
      (validateAttemptEvent event).bind fun _ =>
        match deduplicated context.jobId event.deduplicationKey s.events with
        | none => .ok (s.pushEvent
            (attemptEventRow context.jobId context.operationId fence.attemptId event))
        | some existing =>
          if existing.Carries event then
            .ok (existing, { s with nextSequence := s.nextSequence + 1 })
          else .error (reusedKey event) := by
  unfold Store.insertAttemptEvent validateAttemptEvent
  cases validateEventKind event.kind with
  | error e => rfl
  | ok _ =>
    cases validateDeduplicationKey event.deduplicationKey with
    | error e => rfl
    | ok _ =>
      cases deduplicated context.jobId event.deduplicationKey s.events with
      | none => rfl
      | some existing =>
        by_cases carries : existing.Carries event
        · change _ = if existing.Carries event then _ else _
          rw [if_pos carries]
          have same : existing.kind = event.kind ∧ existing.payload = event.payload := carries
          simp only [ensure,if_pos same]
          rfl
        · change _ = if existing.Carries event then _ else _
          rw [if_neg carries]
          have differs : ¬ (existing.kind = event.kind ∧ existing.payload = event.payload) :=
            carries
          simp only [ensure,if_neg differs]
          rfl

section Replies

variable {id : Nat} {now : Timestamp} {context : AttemptContextRow} {fence : AttemptFence}
  {event : NewAttemptEvent}

theorem run_call (fresh : sys.find id = none)
    (live : sys.store.lockAttemptContext now fence = .ok context) :
    Machine.run step sys (callSteps id now fence event) =
      Machine.run step
        (proceed ⟨id, context, fence, event, .locked⟩
          ⟨sys.store, sys.calls ++ [⟨id, context, fence, event, .locked⟩], sys.replies⟩)
        (replicate 3 (.proceed id)) := by
  have apart : ∀ c ∈ sys.calls, c.id ≠ id := fun c member same =>
    find?_eq_none.mp fresh c member (decide_eq_true same)
  have begun : step sys (.begin id now fence event) =
      ⟨sys.store,sys.calls ++ [⟨id,context,fence,event,.locked⟩],sys.replies⟩ := by
    simp only [step,begin,fresh,live]
  rw [callSteps,Machine.run,foldl_cons,begun]
  exact run_last rfl apart 3

theorem call_answers (fresh : sys.find id = none)
    (live : sys.store.lockAttemptContext now fence = .ok context)
    (free : ¬ sys.Waits context.jobId event.deduplicationKey) :
    sys.Answers context fence event (Machine.run step sys (callSteps id now fence event)) := by
  have apart : ∀ c ∈ sys.calls, c.id ≠ id := fun c member same =>
    find?_eq_none.mp fresh c member (decide_eq_true same)
  unfold Answers
  rw [run_call fresh live,insertAttemptEvent_eq]
  simp only [proceed]
  cases valid : validateAttemptEvent event with
  | error error =>
    simp only
    rw [reply_last apart,run_gone apart]
    exact ⟨rfl,⟨_,rfl⟩,rfl⟩
  | ok _ =>
    simp only [draw]
    rw [advance_last apart,run_last rfl apart]
    have clear : ∀ store, ¬ Waits context.jobId event.deduplicationKey
        ⟨store,sys.calls ++ [⟨id,context,fence,event,.drawn sys.store.nextSequence⟩],
          sys.replies⟩ := fun _ => not_waits_last rfl free
    simp only [proceed,if_neg (clear _)]
    cases present : deduplicated context.jobId event.deduplicationKey sys.store.events with
    | none =>
      simp only
      rw [advance_last apart,run_last rfl apart]
      simp only [proceed,push]
      rw [reply_last apart,run_gone apart]
      exact ⟨rfl,rfl,rfl⟩
    | some existing =>
      simp only
      rw [advance_last apart,run_last rfl apart]
      simp only [proceed,present]
      by_cases carries : existing.Carries event
      · simp only [if_pos carries]
        rw [advance_last apart,run_last rfl apart]
        simp only [proceed]
        rw [reply_last apart,run_gone apart]
        exact ⟨rfl,rfl,rfl⟩
      · simp only [if_neg carries]
        rw [reply_last apart,run_gone apart]
        exact ⟨rfl,⟨_,rfl⟩,rfl⟩

end Replies

theorem attempt_events_idempotent (steps : List AppendStep) :
    (run steps).Idempotent ∧ Machine.Along step Contained init steps ∧
      ∀ id now context fence event, (run steps).find id = none →
        (run steps).store.lockAttemptContext now fence = .ok context →
        ¬ (run steps).Waits context.jobId event.deduplicationKey →
        (run steps).Answers context fence event
          (run (steps ++ callSteps id now fence event)) := by
  have reached : (run steps).Sound :=
    @Machine.run_invariant _ _ step init Sound (fun _ input h => h.step input) init_sound steps
  refine ⟨reached.idempotent,?_,?_⟩
  · exact @Machine.along_of_invariant _ _ step init (fun _ _ => True) Sound Contained
      (fun _ input _ h => h.step input) (fun _ input _ h => h.contained input) init_sound steps
      (Machine.along_true steps)
  · intro id now context fence event fresh live free
    have continued : run (steps ++ callSteps id now fence event) =
        Machine.run step (run steps) (callSteps id now fence event) :=
      Machine.run_append _ _ _
    rw [continued]
    exact call_answers fresh live free

end AppendSystem

end Coordinator
