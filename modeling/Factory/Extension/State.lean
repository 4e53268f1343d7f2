import Mathlib.Data.List.Sort
import Factory.Extension.Tools

namespace Extension

def subagentEventKind : String := "factory.subagent.activity"

def maxProjectedSubagentActivities : Nat := 24

def sameLogicalActivity (left right : FactorySubagentActivity) : Bool :=
  left.callId = right.callId && left.turnId = right.turnId &&
    left.senderThreadId = right.senderThreadId

def insertFirstNew : List String → List String → Bool × List String
  | [], seen => (false, seen)
  | threadId :: rest, seen =>
    if threadId ∈ seen then insertFirstNew rest seen else (true, threadId :: seen)

def selectLatest (limit : Nat) :
    List (FactorySubagentActivity × Nat) → List Nat → List String → List Nat
  | [], selected, _ => selected
  | (activity, index) :: rest, selected, seen =>
    match insertFirstNew activity.receiverThreadIds seen with
    | (false, seen) => selectLatest limit rest selected seen
    | (true, seen) =>
      if (index :: selected).length = limit then index :: selected
      else selectLatest limit rest (index :: selected) seen

def selectRecent (limit : Nat) : List Nat → List Nat → List Nat
  | [], selected => selected
  | index :: rest, selected =>
    if selected.length = limit then selected
    else if index ∈ selected then selectRecent limit rest selected
    else selectRecent limit rest (index :: selected)

def boundedProjection (activities : List FactorySubagentActivity) :
    List FactorySubagentActivity :=
  if activities.length ≤ maxProjectedSubagentActivities then activities
  else
    let latest := selectLatest maxProjectedSubagentActivities activities.zipIdx.reverse [] []
    let selected := selectRecent maxProjectedSubagentActivities
      (List.range activities.length).reverse latest
    (selected.insertionSort (· ≤ ·)).filterMap (fun index => activities[index]?)

def removeLogical (activity : FactorySubagentActivity) :
    List FactorySubagentActivity → Option FactorySubagentActivity × List FactorySubagentActivity
  | [] => (none, [])
  | existing :: rest =>
    if sameLogicalActivity existing activity then (some existing, rest)
    else
      let removed := removeLogical activity rest
      (removed.1, existing :: removed.2)

def applyActivity (activity : FactorySubagentActivity) (archive : Option Nat)
    (state : FactoryState) : FactoryState :=
  let removed := removeLogical activity state.subagents
  let activity := { activity with
    createdAt := (removed.1.map (·.createdAt)).getD activity.createdAt }
  let subagents := removed.2 ++ [activity]
  match archive with
  | none => { state with subagents := subagents }
  | some latestSequence =>
    let history := state.subagentHistory.getD
      ⟨.coordinatorJobEvents, subagentEventKind, latestSequence⟩
    { state with
      subagents := boundedProjection subagents
      subagentHistory := some
        { history with latestSequence := max history.latestSequence latestSequence } }

structure FactoryThreadState where
  durable : Option FactoryState
  cached : Option FactoryState
  deriving DecidableEq

namespace FactoryThreadState

def load (thread : FactoryThreadState) : FactoryState := thread.durable.getD .default

def current (thread : FactoryThreadState) : FactoryState := thread.cached.getD thread.load

def loadIfNeeded (thread : FactoryThreadState) : FactoryThreadState :=
  { thread with cached := some thread.current }

def save (state : FactoryState) (thread : FactoryThreadState) : FactoryThreadState :=
  { thread with durable := some state }

def update (mutation : FactoryState → Except String FactoryState) (thread : FactoryThreadState) :
    FactoryThreadState :=
  match mutation thread.current with
  | .error _ => thread.loadIfNeeded
  | .ok next =>
    let next := { next with revision := saturatingSucc next.revision }
    { thread.save next with cached := some next }

def call (tool : FactoryToolCall) (thread : FactoryThreadState) : FactoryThreadState :=
  match tool.validate with
  | .error _ => thread
  | .ok _ => thread.update tool.mutate

def upsertActivity (activity : FactorySubagentActivity) (archive : Option Nat)
    (thread : FactoryThreadState) : FactoryThreadState :=
  thread.update (fun state => .ok (applyActivity activity archive state))

end FactoryThreadState

end Extension
