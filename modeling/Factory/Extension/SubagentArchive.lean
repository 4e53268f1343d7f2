import Factory.Extension.State
import Factory.Library.Serde
import Factory.Library.Machine

namespace Extension

open Json
open Serde (optionalValue)

def FactorySubagentTool.wireName : FactorySubagentTool → String
  | .spawnAgent => "spawn_agent"
  | .sendInput => "send_input"
  | .resumeAgent => "resume_agent"
  | .wait => "wait"
  | .closeAgent => "close_agent"
  | .interact => "interact"
  | .interruptAgent => "interrupt_agent"

def FactorySubagentToolCallStatus.wireName : FactorySubagentToolCallStatus → String
  | .inProgress => "in_progress"
  | .completed => "completed"
  | .failed => "failed"

def FactorySubagentStatus.wireName : FactorySubagentStatus → String
  | .pendingInit => "pending_init"
  | .running => "running"
  | .interrupted => "interrupted"
  | .completed => "completed"
  | .errored => "errored"
  | .shutdown => "shutdown"
  | .notFound => "not_found"

def FactorySubagentState.toValue (state : FactorySubagentState) : Value :=
  .object
    [("thread_id", .string state.threadId), ("status", .string state.status.wireName),
      ("terminal", .bool state.terminal), ("message", optionalValue .string state.message)]

def FactorySubagentActivity.toValue (activity : FactorySubagentActivity) : Value :=
  .object
    [("call_id", .string activity.callId), ("turn_id", .string activity.turnId),
      ("sender_thread_id", .string activity.senderThreadId),
      ("receiver_thread_ids", .array (activity.receiverThreadIds.map Value.string)),
      ("tool", .string activity.tool.wireName), ("prompt", optionalValue .string activity.prompt),
      ("status", .string activity.status.wireName),
      ("agents", .array (activity.agents.map FactorySubagentState.toValue)),
      ("created_at", .string activity.createdAt), ("updated_at", .string activity.updatedAt)]

structure ArchivedEvent where
  sequence : Nat
  payload : Value
  deduplicationKey : String
  deriving DecidableEq

def activityPayload (activity : FactorySubagentActivity) : Value :=
  (activity.toValue.remove "created_at").remove "updated_at"

def activityKey (digest : Value → String) (activity : FactorySubagentActivity) : String :=
  subagentEventKind ++ ":" ++ digest (activityPayload activity)

def archivedUnder (key : String) (archive : List ArchivedEvent) : Option ArchivedEvent :=
  archive.find? (fun e => e.deduplicationKey = key)

inductive Fault where
  | clean
  | refused
  | unapplied
  | unacknowledged
  deriving DecidableEq

inductive UpsertStage where
  | started
  | archiving (remaining : List FactorySubagentActivity) (latest : Option Nat)
  | updating (archive : Option Nat)
  deriving DecidableEq

def UpsertStage.saves : UpsertStage → Bool
  | .updating _ => true
  | _ => false

structure Upsert where
  id : Nat
  activity : FactorySubagentActivity
  stage : UpsertStage
  deriving DecidableEq

structure SubagentSystem where
  thread : FactoryThreadState
  archive : List ArchivedEvent
  upserts : List Upsert
  completed : List FactorySubagentActivity
  deriving DecidableEq

inductive SubagentStep where
  | begin (id : Nat) (activity : FactorySubagentActivity)
  | proceed (id sequence : Nat) (fault : Fault)
  | restart
  deriving DecidableEq

def extendArchive (archive : Option Nat) (sequence : Nat) : Option Nat :=
  some (max (archive.getD sequence) sequence)

def legacyActivities (snapshot : FactoryState) : List FactorySubagentActivity :=
  if snapshot.subagentHistory.isNone then snapshot.subagents else []

def inheritCreatedAt (snapshot : FactoryState) (activity : FactorySubagentActivity) :
    FactorySubagentActivity :=
  match snapshot.subagents.find? (fun existing => sameLogicalActivity existing activity) with
  | none => activity
  | some existing => { activity with createdAt := existing.createdAt }

namespace SubagentSystem

def find (id : Nat) (sys : SubagentSystem) : Option Upsert :=
  sys.upserts.find? (fun u => u.id = id)

def close (id : Nat) (sys : SubagentSystem) : SubagentSystem :=
  { sys with upserts := sys.upserts.filter (fun u => u.id ≠ id) }

def advance (upsert : Upsert) (sys : SubagentSystem) : SubagentSystem :=
  { sys.close upsert.id with
    upserts := sys.upserts.filter (fun u => u.id ≠ upsert.id) ++ [upsert] }

def snapshot (upsert : Upsert) (fault : Fault) (sys : SubagentSystem) : SubagentSystem :=
  match fault with
  | .clean =>
    let current := sys.thread.current
    let activity := inheritCreatedAt current upsert.activity
    { sys with thread := sys.thread.loadIfNeeded }.advance
      { upsert with
        activity := activity
        stage := .archiving (legacyActivities current ++ [activity]) none }
  | _ => sys.close upsert.id

def appendEvent (digest : Value → String) (archives : Bool) (sequence : Nat)
    (activity : FactorySubagentActivity) (archive : List ArchivedEvent) :
    Option (Option Nat × List ArchivedEvent) :=
  if archives then
    match archivedUnder (activityKey digest activity) archive with
    | some existing =>
      if existing.payload = activityPayload activity then some (some existing.sequence, archive)
      else none
    | none =>
      some (some sequence,
        archive ++ [⟨sequence, activityPayload activity, activityKey digest activity⟩])
  else some (none, archive)

def afterAppend (remaining : List FactorySubagentActivity) (latest reference : Option Nat) :
    UpsertStage :=
  match reference with
  | none => .updating none
  | some sequence =>
    if remaining.isEmpty then .updating (extendArchive latest sequence)
    else .archiving remaining (extendArchive latest sequence)

def archiveActivity (digest : Value → String) (archives : Bool) (upsert : Upsert)
    (next : FactorySubagentActivity) (remaining : List FactorySubagentActivity)
    (latest : Option Nat) (sequence : Nat) (fault : Fault) (sys : SubagentSystem) :
    SubagentSystem :=
  match appendEvent digest archives sequence next sys.archive, fault with
  | some (reference, archive), .clean =>
    { sys with archive := archive }.advance
      { upsert with stage := afterAppend remaining latest reference }
  | some (_, archive), .unacknowledged => { sys with archive := archive }.close upsert.id
  | _, _ => sys.close upsert.id

def update (upsert : Upsert) (archive : Option Nat) (fault : Fault) (sys : SubagentSystem) :
    SubagentSystem :=
  let updated := sys.thread.upsertActivity upsert.activity archive
  match fault with
  | .clean =>
    { sys with thread := updated, completed := sys.completed ++ [upsert.activity] }.close
      upsert.id
  | .refused => sys.close upsert.id
  | .unapplied => { sys with thread := sys.thread.loadIfNeeded }.close upsert.id
  | .unacknowledged =>
    { sys with thread := { sys.thread.loadIfNeeded with durable := updated.durable } }.close
      upsert.id

def proceed (digest : Value → String) (archives : Bool) (upsert : Upsert) (sequence : Nat)
    (fault : Fault) (sys : SubagentSystem) : SubagentSystem :=
  match upsert.stage with
  | .started => sys.snapshot upsert fault
  | .archiving [] latest => sys.advance { upsert with stage := .updating latest }
  | .archiving (next :: remaining) latest =>
    sys.archiveActivity digest archives upsert next remaining latest sequence fault
  | .updating archive => sys.update upsert archive fault

def step (digest : Value → String) (archives : Bool) (sys : SubagentSystem) :
    SubagentStep → SubagentSystem
  | .begin id activity =>
    if sys.find id = none then { sys with upserts := sys.upserts ++ [⟨id, activity, .started⟩] }
    else sys
  | .proceed id sequence fault =>
    match sys.find id with
    | none => sys
    | some upsert => sys.proceed digest archives upsert sequence fault
  | .restart => { sys with thread := { sys.thread with cached := none }, upserts := [] }

def start (durable : Option FactoryState) (archive : List ArchivedEvent) : SubagentSystem :=
  ⟨⟨durable, none⟩, archive, [], []⟩

end SubagentSystem

end Extension
