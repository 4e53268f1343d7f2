import Factory.Coordinator.Lease
import Mathlib.Data.List.Sort

namespace Coordinator

open Result Table

structure JobEventPage where
  events : List JobEventRow
  nextCursor : Nat
  deriving DecidableEq

def validateEventKind (kind : String) : Outcome Unit :=
  ensure (¬ Text.isBlank kind) (.invalidInput "job event kind must not be empty")

def validateDeduplicationKey (key : Option String) : Outcome Unit :=
  ensure (∀ k ∈ key, ¬ Text.isBlank k)
    (.invalidInput "job event deduplication key must not be empty")

def eventPage (jobId : JobId) (after limit : Nat) (events : List JobEventRow) : JobEventPage :=
  let rows := (events.filter (fun e => e.jobId = jobId ∧ after < e.sequence)).insertionSort
    (fun a b => a.sequence ≤ b.sequence)
  let page := rows.take limit
  ⟨page, (page.getLast?.map (·.sequence)).getD after⟩

def deduplicated (jobId : JobId) (key : Option String) (events : List JobEventRow) :
    Option JobEventRow :=
  if key.isSome then events.find? (fun e => e.jobId = jobId ∧ e.deduplicationKey = key)
  else none

def jobEventRow (event : NewJobEvent) (sequence : Nat) : JobEventRow :=
  ⟨sequence, event.jobId, none, none, event.kind, event.payload, none⟩

def attemptEventRow (jobId : JobId) (operationId : OperationId) (attemptId : AttemptId)
    (event : NewAttemptEvent) (sequence : Nat) : JobEventRow :=
  ⟨sequence, jobId, some operationId, some attemptId, event.kind, event.payload,
    event.deduplicationKey⟩

namespace Store

def pushEvent (row : Nat → JobEventRow) (s : Store) : JobEventRow × Store :=
  (row s.nextSequence,
    { s with events := s.events ++ [row s.nextSequence], nextSequence := s.nextSequence + 1 })

def appendJobEvent (event : NewJobEvent) (s : Store) : Outcome (JobEventRow × Store) := do
  validateEventKind event.kind
  let _ ← okOr (s.findJob event.jobId) (.jobNotFound event.jobId)
  pure (s.pushEvent (jobEventRow event))

def insertAttemptEvent (context : AttemptContextRow) (fence : AttemptFence)
    (event : NewAttemptEvent) (s : Store) : Outcome (JobEventRow × Store) := do
  validateEventKind event.kind
  validateDeduplicationKey event.deduplicationKey
  match deduplicated context.jobId event.deduplicationKey s.events with
  | none =>
    pure (s.pushEvent
      (attemptEventRow context.jobId context.operationId fence.attemptId event))
  | some existing =>
    ensure (existing.kind = event.kind ∧ existing.payload = event.payload)
      (.invalidInput ("job event deduplication key " ++
        Text.debug (event.deduplicationKey.getD "") ++ " was reused for different content"))
    pure (existing, { s with nextSequence := s.nextSequence + 1 })

def appendAttemptEvent (now : Timestamp) (fence : AttemptFence) (event : NewAttemptEvent)
    (s : Store) : Outcome (JobEventRow × Store) := do
  let context ← s.lockAttemptContext now fence
  s.insertAttemptEvent context fence event

def listJobEvents (jobId : JobId) (after limit : Nat) (s : Store) : Outcome JobEventPage := do
  ensure (limit ≠ 0 ∧ limit ≤ 1000)
    (.invalidInput "job event page limit must be between 1 and 1000")
  let _ ← okOr (s.findJob jobId) (.jobNotFound jobId)
  let after ← databaseSequence after "job event cursor"
  pure (eventPage jobId after limit s.events)

end Store

end Coordinator
