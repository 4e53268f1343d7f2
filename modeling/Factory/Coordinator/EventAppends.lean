import Factory.Coordinator.EventLog
import Factory.Coordinator.Effects
import Mathlib.Data.List.Pairwise

namespace Coordinator

open Result Table List EventLog

inductive AppendStage where
  | locked
  | drawn (sequence : Nat)
  | inserted (row : JobEventRow)
  | conflicted
  | found (existing : JobEventRow)
  deriving DecidableEq

structure AppendCall where
  id : Nat
  context : AttemptContextRow
  fence : AttemptFence
  event : NewAttemptEvent
  stage : AppendStage
  deriving DecidableEq

structure AppendReply where
  context : AttemptContextRow
  fence : AttemptFence
  event : NewAttemptEvent
  outcome : Outcome JobEventRow

structure AppendSystem where
  store : Store
  calls : List AppendCall
  replies : List AppendReply

inductive AppendStep where
  | begin (id : Nat) (now : Timestamp) (fence : AttemptFence) (event : NewAttemptEvent)
  | proceed (id : Nat)
  | lose (id : Nat)
  | appendJobEvent (event : NewJobEvent)
  | other (store : Store)

def JobEventRow.Occupies (jobId : JobId) (key : Option String) (row : JobEventRow) : Prop :=
  key.isSome = true ∧ row.jobId = jobId ∧ row.deduplicationKey = key

instance (jobId : JobId) (key : Option String) (row : JobEventRow) :
    Decidable (row.Occupies jobId key) :=
  inferInstanceAs (Decidable
    (key.isSome = true ∧ row.jobId = jobId ∧ row.deduplicationKey = key))

def JobEventRow.Carries (event : NewAttemptEvent) (row : JobEventRow) : Prop :=
  row.kind = event.kind ∧ row.payload = event.payload

instance (event : NewAttemptEvent) (row : JobEventRow) : Decidable (row.Carries event) :=
  inferInstanceAs (Decidable (row.kind = event.kind ∧ row.payload = event.payload))

def reusedKey (event : NewAttemptEvent) : CoordinatorError :=
  .invalidInput ("job event deduplication key " ++
    Text.debug (event.deduplicationKey.getD "") ++ " was reused for different content")

namespace AppendCall

def newRow (sequence : Nat) (call : AppendCall) : JobEventRow :=
  attemptEventRow call.context.jobId call.context.operationId call.fence.attemptId call.event
    sequence

def uncommitted (call : AppendCall) : Option JobEventRow :=
  match call.stage with
  | .inserted row => some row
  | _ => none

end AppendCall

namespace AppendSystem

def init : AppendSystem := ⟨Store.empty, [], []⟩

def find (id : Nat) (sys : AppendSystem) : Option AppendCall :=
  sys.calls.find? (fun c => c.id = id)

def close (id : Nat) (sys : AppendSystem) : AppendSystem :=
  { sys with calls := sys.calls.filter (fun c => c.id ≠ id) }

def advance (call : AppendCall) (stage : AppendStage) (sys : AppendSystem) : AppendSystem :=
  { sys with
    calls := sys.calls.filter (fun c => c.id ≠ call.id) ++ [{ call with stage := stage }] }

def reply (call : AppendCall) (outcome : Outcome JobEventRow) (sys : AppendSystem) :
    AppendSystem :=
  { sys.close call.id with
    replies := sys.replies ++ [⟨call.context, call.fence, call.event, outcome⟩] }

def draw (sys : AppendSystem) : AppendSystem :=
  { sys with store := { sys.store with nextSequence := sys.store.nextSequence + 1 } }

def push (row : JobEventRow) (sys : AppendSystem) : AppendSystem :=
  { sys with store := { sys.store with events := sys.store.events ++ [row] } }

def Waits (jobId : JobId) (key : Option String) (sys : AppendSystem) : Prop :=
  ∃ c ∈ sys.calls, ∃ row ∈ c.uncommitted, row.Occupies jobId key

instance (jobId : JobId) (key : Option String) (sys : AppendSystem) :
    Decidable (sys.Waits jobId key) :=
  inferInstanceAs (Decidable (∃ c ∈ sys.calls, ∃ row ∈ c.uncommitted, row.Occupies jobId key))

def begin (id : Nat) (now : Timestamp) (fence : AttemptFence) (event : NewAttemptEvent)
    (sys : AppendSystem) : AppendSystem :=
  match sys.find id, sys.store.lockAttemptContext now fence with
  | none, .ok context =>
    { sys with calls := sys.calls ++ [⟨id, context, fence, event, .locked⟩] }
  | _, _ => sys

def proceed (call : AppendCall) (sys : AppendSystem) : AppendSystem :=
  match call.stage with
  | .locked =>
    match validateAttemptEvent call.event with
    | .error error => sys.reply call (.error error)
    | .ok _ => sys.draw.advance call (.drawn sys.store.nextSequence)
  | .drawn sequence =>
    if sys.Waits call.context.jobId call.event.deduplicationKey then sys
    else
      match deduplicated call.context.jobId call.event.deduplicationKey sys.store.events with
      | none => sys.advance call (.inserted (call.newRow sequence))
      | some _ => sys.advance call .conflicted
  | .inserted row => (sys.push row).reply call (.ok row)
  | .conflicted =>
    match deduplicated call.context.jobId call.event.deduplicationKey sys.store.events with
    | none => sys.reply call (.error (.database .rowNotFound))
    | some existing =>
      if existing.Carries call.event then sys.advance call (.found existing)
      else sys.reply call (.error (reusedKey call.event))
  | .found existing => sys.reply call (.ok existing)

def appendJobEvent (event : NewJobEvent) (sys : AppendSystem) : AppendSystem :=
  match sys.store.appendJobEvent event with
  | .error _ => sys
  | .ok (_, store) => { sys with store := store }

def other (store : Store) (sys : AppendSystem) : AppendSystem :=
  { sys with
    store := { store with
      events := sys.store.events, nextSequence := sys.store.nextSequence } }

def step (sys : AppendSystem) : AppendStep → AppendSystem
  | .begin id now fence event => sys.begin id now fence event
  | .proceed id =>
    match sys.find id with
    | none => sys
    | some call => sys.proceed call
  | .lose id => sys.close id
  | .appendJobEvent event => sys.appendJobEvent event
  | .other store => sys.other store

def run (steps : List AppendStep) : AppendSystem := Machine.run step init steps

end AppendSystem

theorem JobEventRow.occupies_comm {a b : JobEventRow}
    (h : a.Occupies b.jobId b.deduplicationKey) : b.Occupies a.jobId a.deduplicationKey := by
  obtain ⟨keyed,job,key⟩ := h
  exact ⟨key ▸ keyed,job.symm,key.symm⟩

def JobEventRow.Apart (a b : JobEventRow) : Prop := ¬ b.Occupies a.jobId a.deduplicationKey

instance : Std.Symm JobEventRow.Apart where
  symm _ _ h same := h (JobEventRow.occupies_comm same)

variable {events : List JobEventRow} {key : Option String} {added : List JobEventRow}

theorem deduplicated_some {jobId : JobId} {e : JobEventRow}
    (h : deduplicated jobId key events = some e) :
    e ∈ events ∧ e.Occupies jobId key := by
  unfold deduplicated at h
  split at h
  · next keyed =>
    have found := find?_some h
    exact ⟨mem_of_find?_eq_some h,keyed,of_decide_eq_true found⟩
  · cases h

theorem deduplicated_none {jobId : JobId} (h : deduplicated jobId key events = none) :
    ∀ e ∈ events, ¬ e.Occupies jobId key := by
  rintro e member ⟨keyed,job,same⟩
  rw [deduplicated,if_pos keyed,find?_eq_none] at h
  exact h e member (decide_eq_true ⟨job,same⟩)

namespace AppendCall

def Apart (c d : AppendCall) : Prop :=
  ∀ a ∈ c.uncommitted, ∀ b ∈ d.uncommitted, ¬ b.Occupies a.jobId a.deduplicationKey

instance : Std.Symm Apart where
  symm _ _ h a ha b hb same := h b hb a ha (JobEventRow.occupies_comm same)

def Sound (events : List JobEventRow) (call : AppendCall) : Prop :=
  match call.stage with
  | .locked => True
  | .drawn _ => validateAttemptEvent call.event = .ok ()
  | .inserted row =>
    validateAttemptEvent call.event = .ok () ∧
      ∃ sequence, row = call.newRow sequence
  | .conflicted =>
    validateAttemptEvent call.event = .ok () ∧
      ∃ e ∈ events, e.Occupies call.context.jobId call.event.deduplicationKey
  | .found existing =>
    existing ∈ events ∧ existing.Occupies call.context.jobId call.event.deduplicationKey ∧
      existing.Carries call.event

end AppendCall

namespace AppendReply

def newRow (sequence : Nat) (answer : AppendReply) : JobEventRow :=
  attemptEventRow answer.context.jobId answer.context.operationId answer.fence.attemptId
    answer.event sequence

def Sound (events : List JobEventRow) (answer : AppendReply) : Prop :=
  match answer.outcome with
  | .ok row =>
    row ∈ events ∧ row.Carries answer.event ∧
      (row.Occupies answer.context.jobId answer.event.deduplicationKey ∨
        ∃ sequence, row = answer.newRow sequence)
  | .error error =>
    validateAttemptEvent answer.event = .error error ∨
      validateAttemptEvent answer.event = .ok () ∧ error = reusedKey answer.event ∧
        ∃ e ∈ events, e.Occupies answer.context.jobId answer.event.deduplicationKey ∧
          ¬ e.Carries answer.event

end AppendReply

structure Deduplicated (events : List JobEventRow) (calls : List AppendCall)
    (replies : List AppendReply) : Prop where
  unique : events.Pairwise JobEventRow.Apart
  valid : ∀ e ∈ events, e.deduplicationKey.isSome = true →
    validateAttemptEvent ⟨e.kind, e.payload, e.deduplicationKey⟩ = .ok ()
  fresh : ∀ c ∈ calls, ∀ row ∈ c.uncommitted, ∀ e ∈ events,
    ¬ e.Occupies row.jobId row.deduplicationKey
  disjoint : calls.Pairwise AppendCall.Apart
  calls : ∀ c ∈ calls, c.Sound events
  replies : ∀ r ∈ replies, r.Sound events

theorem AppendCall.Sound.mono {call : AppendCall} (h : call.Sound events) :
    call.Sound (events ++ added) := by
  unfold AppendCall.Sound at h ⊢
  split at h
  · trivial
  · exact h
  · exact h
  · obtain ⟨valid,e,stored,slot⟩ := h
    exact ⟨valid,e,mem_append_left _ stored,slot⟩
  · obtain ⟨stored,slot,content⟩ := h
    exact ⟨mem_append_left _ stored,slot,content⟩

theorem AppendReply.Sound.mono {answer : AppendReply} (h : answer.Sound events) :
    answer.Sound (events ++ added) := by
  unfold AppendReply.Sound at h ⊢
  split at h
  · obtain ⟨stored,content,slot⟩ := h
    exact ⟨mem_append_left _ stored,content,slot⟩
  · rcases h with invalid | ⟨valid,reused,e,stored,slot,content⟩
    · exact .inl invalid
    · exact .inr ⟨valid,reused,e,mem_append_left _ stored,slot,content⟩

namespace Deduplicated

variable {events : List JobEventRow} {calls : List AppendCall} {replies : List AppendReply}

theorem closed (h : Deduplicated events calls replies) (id : Nat) :
    Deduplicated events (calls.filter (fun c => c.id ≠ id)) replies where
  unique := h.unique
  valid := h.valid
  fresh := fun c member => h.fresh c (mem_of_mem_filter member)
  disjoint := h.disjoint.filter _
  calls := fun c member => h.calls c (mem_of_mem_filter member)
  replies := h.replies

theorem opened (h : Deduplicated events calls replies) {call : AppendCall}
    (sound : call.Sound events)
    (fresh : ∀ row ∈ call.uncommitted, (∀ e ∈ events,
      ¬ e.Occupies row.jobId row.deduplicationKey) ∧
        ∀ c ∈ calls, ∀ a ∈ c.uncommitted, ¬ row.Occupies a.jobId a.deduplicationKey) :
    Deduplicated events (calls ++ [call]) replies where
  unique := h.unique
  valid := h.valid
  fresh := by
    intro c member row inserted
    rcases mem_append.mp member with old | new
    · exact h.fresh c old row inserted
    · cases mem_singleton.mp new
      exact (fresh row inserted).1
  disjoint := by
    refine pairwise_append.mpr ⟨h.disjoint,pairwise_singleton _ _,?_⟩
    intro c member d new a ha b hb
    cases mem_singleton.mp new
    exact (fresh b hb).2 c member a ha
  calls := by
    intro c member
    rcases mem_append.mp member with old | new
    · exact h.calls c old
    · cases mem_singleton.mp new
      exact sound
  replies := h.replies

theorem answered (h : Deduplicated events calls replies) {answer : AppendReply}
    (sound : answer.Sound events) : Deduplicated events calls (replies ++ [answer]) where
  unique := h.unique
  valid := h.valid
  fresh := h.fresh
  disjoint := h.disjoint
  calls := h.calls
  replies := by
    intro r member
    rcases mem_append.mp member with old | new
    · exact h.replies r old
    · cases mem_singleton.mp new
      exact sound

theorem pushed (h : Deduplicated events calls replies) {row : JobEventRow}
    (valid : row.deduplicationKey.isSome = true →
      validateAttemptEvent ⟨row.kind, row.payload, row.deduplicationKey⟩ = .ok ())
    (unique : ∀ e ∈ events, ¬ e.Occupies row.jobId row.deduplicationKey)
    (fresh : ∀ c ∈ calls, ∀ a ∈ c.uncommitted, ¬ row.Occupies a.jobId a.deduplicationKey) :
    Deduplicated (events ++ [row]) calls replies where
  unique := by
    refine pairwise_append.mpr ⟨h.unique,pairwise_singleton _ _,?_⟩
    intro e stored r new same
    cases mem_singleton.mp new
    exact unique e stored (JobEventRow.occupies_comm same)
  valid := by
    intro e stored keyed
    rcases mem_append.mp stored with old | new
    · exact h.valid e old keyed
    · cases mem_singleton.mp new
      exact valid keyed
  fresh := by
    intro c member a ha e stored
    rcases mem_append.mp stored with old | new
    · exact h.fresh c member a ha e old
    · cases mem_singleton.mp new
      exact fresh c member a ha
  disjoint := h.disjoint
  calls := fun c member => (h.calls c member).mono
  replies := fun r member => (h.replies r member).mono

end Deduplicated

namespace AppendSystem

variable {sys : AppendSystem}

def Sound (sys : AppendSystem) : Prop :=
  Deduplicated sys.store.events sys.calls sys.replies

variable {call : AppendCall}

theorem find_some {id : Nat} (h : sys.find id = some call) :
    call ∈ sys.calls ∧ call.id = id := by
  have found := find?_some h
  exact ⟨mem_of_find?_eq_some h,of_decide_eq_true found⟩

theorem Sound.advance (h : sys.Sound) {stage : AppendStage}
    (sound : ({ call with stage := stage } : AppendCall).Sound sys.store.events)
    (fresh : ∀ row ∈ ({ call with stage := stage } : AppendCall).uncommitted,
      (∀ e ∈ sys.store.events, ¬ e.Occupies row.jobId row.deduplicationKey) ∧
        ∀ c ∈ sys.calls, ∀ a ∈ c.uncommitted, ¬ row.Occupies a.jobId a.deduplicationKey) :
    (sys.advance call stage).Sound := by
  refine (h.closed call.id).opened sound fun row inserted => ?_
  obtain ⟨stored,pending⟩ := fresh row inserted
  exact ⟨stored,fun c member => pending c (mem_of_mem_filter member)⟩

theorem Sound.reply (h : sys.Sound) {outcome : Outcome JobEventRow}
    (sound : AppendReply.Sound sys.store.events ⟨call.context, call.fence, call.event, outcome⟩) :
    (sys.reply call outcome).Sound :=
  (h.closed call.id).answered sound

theorem Sound.begin (h : sys.Sound) (id : Nat) (now : Timestamp) (fence : AttemptFence)
    (event : NewAttemptEvent) : (sys.begin id now fence event).Sound := by
  unfold AppendSystem.begin
  split
  · exact h.opened trivial nofun
  · exact h

section Calls

variable (h : sys.Sound) (member : call ∈ sys.calls)

include h member

theorem Sound.commit {row : JobEventRow} (stage : call.stage = .inserted row) :
    ((sys.push row).reply call (.ok row)).Sound := by
  have own : row ∈ call.uncommitted := by simp [AppendCall.uncommitted,stage]
  have sound := h.calls call member
  simp only [AppendCall.Sound,stage] at sound
  obtain ⟨valid,sequence,rfl⟩ := sound
  have pending : ∀ c ∈ sys.calls.filter (fun c => c.id ≠ call.id), ∀ a ∈ c.uncommitted,
      ¬ (call.newRow sequence).Occupies a.jobId a.deduplicationKey := by
    intro c hc a ha same
    obtain ⟨hc,other⟩ := mem_filter.mp hc
    have distinct : c ≠ call := fun eq => of_decide_eq_true other (congrArg AppendCall.id eq)
    exact h.disjoint.forall hc member distinct a ha _ own same
  refine Deduplicated.answered ((h.closed call.id).pushed (fun _ => valid)
    (h.fresh call member _ own) pending) ?_
  exact ⟨mem_append_right _ mem_cons_self,⟨rfl,rfl⟩,.inr ⟨sequence,rfl⟩⟩

theorem Sound.insert {sequence : Nat} (stage : call.stage = .drawn sequence)
    (waits : ¬ sys.Waits call.context.jobId call.event.deduplicationKey)
    (absent : deduplicated call.context.jobId call.event.deduplicationKey sys.store.events = none) :
    (sys.advance call (.inserted (call.newRow sequence))).Sound := by
  have valid := h.calls call member
  simp only [AppendCall.Sound,stage] at valid
  refine h.advance ⟨valid,sequence,rfl⟩ fun row inserted => ?_
  cases Option.mem_some_iff.mp inserted
  refine ⟨deduplicated_none absent,?_⟩
  intro c hc a ha same
  exact waits ⟨c,hc,a,ha,JobEventRow.occupies_comm same⟩

theorem Sound.conflict {sequence : Nat} (stage : call.stage = .drawn sequence)
    {existing : JobEventRow}
    (present : deduplicated call.context.jobId call.event.deduplicationKey sys.store.events =
      some existing) : (sys.advance call .conflicted).Sound := by
  have valid := h.calls call member
  simp only [AppendCall.Sound,stage] at valid
  obtain ⟨stored,slot⟩ := deduplicated_some present
  exact h.advance ⟨valid,existing,stored,slot⟩ nofun

theorem Sound.select (stage : call.stage = .conflicted) : (sys.proceed call).Sound := by
  have conflicted := h.calls call member
  simp only [AppendCall.Sound,stage] at conflicted
  obtain ⟨valid,e,stored,slot⟩ := conflicted
  simp only [AppendSystem.proceed,stage]
  split
  · next absent => exact absurd slot (deduplicated_none absent e stored)
  · next existing present =>
    obtain ⟨stored,slot⟩ := deduplicated_some present
    split
    · next carries => exact h.advance ⟨stored,slot,carries⟩ nofun
    · next differs => exact h.reply (.inr ⟨valid,rfl,existing,stored,slot,differs⟩)

theorem Sound.proceed :
    (sys.proceed call).Sound := by
  cases stage : call.stage with
  | locked =>
    simp only [AppendSystem.proceed,stage]
    split
    · next invalid => exact h.reply (.inl invalid)
    · next valid =>
      have drawn : sys.draw.Sound := h
      exact drawn.advance valid nofun
  | drawn sequence =>
    simp only [AppendSystem.proceed,stage]
    split
    · exact h
    · next waits =>
      split
      · next absent => exact h.insert member stage waits absent
      · next present => exact h.conflict member stage present
  | inserted row =>
    simp only [AppendSystem.proceed,stage]
    exact h.commit member stage
  | conflicted => exact h.select member stage
  | found existing =>
    have found := h.calls call member
    simp only [AppendCall.Sound,stage] at found
    obtain ⟨stored,slot,carries⟩ := found
    simp only [AppendSystem.proceed,stage]
    exact h.reply ⟨stored,carries,.inl slot⟩

end Calls

theorem appendJobEvent_events (event : NewJobEvent) :
    sys.appendJobEvent event = sys ∨
      (sys.appendJobEvent event).store.events =
          sys.store.events ++ [jobEventRow event sys.store.nextSequence] ∧
        (sys.appendJobEvent event).calls = sys.calls ∧
        (sys.appendJobEvent event).replies = sys.replies := by
  unfold appendJobEvent
  split
  · exact .inl rfl
  · next appended =>
    simp only [Store.appendJobEvent,bind_ok,pure_ok,Store.pushEvent,Prod.mk.injEq] at appended
    obtain ⟨_,_,_,_,_,rfl⟩ := appended
    exact .inr ⟨rfl,rfl,rfl⟩

theorem Sound.step (h : sys.Sound) (input : AppendStep) : (sys.step input).Sound := by
  cases input with
  | begin id now fence event => exact h.begin id now fence event
  | proceed id =>
    simp only [AppendSystem.step]
    split
    · exact h
    · next found => exact h.proceed (find_some found).1
  | lose id => exact h.closed id
  | appendJobEvent event =>
    rcases @appendJobEvent_events sys event with same | ⟨events,calls,replies⟩
    · rw [AppendSystem.step,same]
      exact h
    · simp only [AppendSystem.step,Sound,events,calls,replies]
      refine h.pushed nofun (fun e _ same => nomatch same.1) fun c _ a _ same => ?_
      obtain ⟨keyed,_,key⟩ := same
      rw [← key] at keyed
      cases keyed
  | other store => exact h

theorem init_sound : init.Sound where
  unique := .nil
  valid := fun _ member => absurd member not_mem_nil
  fresh := fun _ member => absurd member not_mem_nil
  disjoint := .nil
  calls := fun _ member => absurd member not_mem_nil
  replies := fun _ member => absurd member not_mem_nil

end AppendSystem

end Coordinator
