import Factory.Coordinator.Events
import Factory.Library.Machine

namespace Coordinator

open Table

inductive RowLock where
  | keyShare
  | forUpdate
  deriving DecidableEq

structure Transaction where
  id : Nat
  lock : Option RowLock
  inserted : Option JobEventRow
  deriving DecidableEq

structure EventLog where
  nextSequence : Nat
  committed : List JobEventRow
  transactions : List Transaction
  cursor : Nat
  received : List JobEventRow
  deriving DecidableEq

inductive EventStep where
  | lockJob (id : Nat)
  | insertAttemptEvent (id : Nat) (operationId : OperationId) (attemptId : AttemptId)
      (event : NewAttemptEvent)
  | insertJobEvent (id : Nat) (kind : String) (payload : Json.Value)
  | checkJob (id : Nat)
  | commit (id : Nat)
  | rollback (id : Nat)
  | allocate
  | listJobEvents (limit : Nat)
  deriving DecidableEq

namespace EventLog

def init : EventLog := ⟨1, [], [], 0, []⟩

def find (id : Nat) (log : EventLog) : Option Transaction :=
  log.transactions.find? (fun t => t.id = id)

def unlocked (log : EventLog) : Prop := ∀ t ∈ log.transactions, t.lock = none

def shareable (log : EventLog) : Prop :=
  ∀ t ∈ log.transactions, t.lock ≠ some .forUpdate

instance (log : EventLog) : Decidable log.unlocked :=
  inferInstanceAs (Decidable (∀ t ∈ log.transactions, t.lock = none))

instance (log : EventLog) : Decidable log.shareable :=
  inferInstanceAs (Decidable (∀ t ∈ log.transactions, t.lock ≠ some .forUpdate))

def start (t : Transaction) (log : EventLog) : EventLog :=
  { log with transactions := log.transactions ++ [t] }

def close (id : Nat) (log : EventLog) : EventLog :=
  { log with transactions := log.transactions.filter (fun t => t.id ≠ id) }

def allocate (log : EventLog) : EventLog := { log with nextSequence := log.nextSequence + 1 }

def lockJob (id : Nat) (log : EventLog) : EventLog :=
  if log.find id = none ∧ log.unlocked then log.start ⟨id, some .forUpdate, none⟩ else log

def insertJobEvent (jobId : JobId) (id : Nat) (kind : String) (payload : Json.Value)
    (log : EventLog) : EventLog :=
  match validateEventKind kind with
  | .error _ => log
  | .ok _ =>
    if log.find id = none then
      log.allocate.start ⟨id, none, some (jobEventRow ⟨jobId, kind, payload⟩ log.nextSequence)⟩
    else log

def checkJob (id : Nat) (log : EventLog) : EventLog :=
  if log.shareable then
    { log with
      transactions := updateWhere (fun t => t.id = id ∧ t.lock = none)
        (fun t => { t with lock := some .keyShare }) log.transactions }
  else log

def validateAttemptEvent (event : NewAttemptEvent) : Outcome Unit := do
  validateEventKind event.kind
  validateDeduplicationKey event.deduplicationKey

def insertAttemptEvent (jobId : JobId) (id : Nat) (operationId : OperationId)
    (attemptId : AttemptId) (event : NewAttemptEvent) (log : EventLog) : EventLog :=
  match log.find id with
  | some ⟨_, some .forUpdate, none⟩ =>
    match validateAttemptEvent event with
    | .error _ => log.close id
    | .ok _ =>
      match deduplicated jobId event.deduplicationKey log.committed with
      | none =>
        (log.allocate.close id).start ⟨id, some .forUpdate,
          some (attemptEventRow jobId operationId attemptId event log.nextSequence)⟩
      | some existing =>
        if existing.kind = event.kind ∧ existing.payload = event.payload then log.allocate
        else log.allocate.close id
  | _ => log

def commit (id : Nat) (log : EventLog) : EventLog :=
  match log.find id with
  | some ⟨_, some _, inserted⟩ =>
    { log.close id with committed := log.committed ++ inserted.toList }
  | _ => log

def listJobEvents (jobId : JobId) (limit : Nat) (log : EventLog) : EventLog :=
  if limit ≠ 0 ∧ limit ≤ 1000 then
    let page := eventPage jobId log.cursor limit log.committed
    { log with cursor := page.nextCursor, received := log.received ++ page.events }
  else log

def step (jobId : JobId) (log : EventLog) : EventStep → EventLog
  | .lockJob id => log.lockJob id
  | .insertAttemptEvent id operationId attemptId event =>
    log.insertAttemptEvent jobId id operationId attemptId event
  | .insertJobEvent id kind payload => log.insertJobEvent jobId id kind payload
  | .checkJob id => log.checkJob id
  | .commit id => log.commit id
  | .rollback id => log.close id
  | .allocate => log.allocate
  | .listJobEvents limit => log.listJobEvents jobId limit

def run (jobId : JobId) (steps : List EventStep) : EventLog :=
  Machine.run (step jobId) init steps

def Drained (jobId : JobId) (log : EventLog) : Prop :=
  (eventPage jobId log.cursor 1000 log.committed).events = []

def NeverPassed (log later : EventLog) : Prop :=
  ∀ e ∈ later.committed, e ∉ log.committed → log.cursor < e.sequence

structure Complete (jobId : JobId) (log : EventLog) : Prop where
  increasing : log.received.Pairwise (fun a b => a.sequence < b.sequence)
  committed : ∀ e ∈ log.received, e ∈ log.committed
  drained : log.Drained jobId → ∀ e ∈ log.committed, e ∈ log.received

instance (jobId : JobId) (log : EventLog) : Decidable (log.Drained jobId) :=
  inferInstanceAs (Decidable ((eventPage jobId log.cursor 1000 log.committed).events = []))

end EventLog

end Coordinator
