import Factory.Runtime.DetachedReview
import Factory.Library.Machine

namespace Runtime

open Extension Result

inductive SessionTurn where
  | parent
  | review
  deriving DecidableEq

structure StageSession where
  stage : FactoryTurnStage
  thread : FactoryThreadState
  turn : Option SessionTurn
  pending : Option FactoryReviewRecoveryBaseline
  outdated : Bool
  deriving DecidableEq

inductive SessionStep where
  | startTurn (turn : SessionTurn)
  | prompt
  | tool (call : FactoryToolCall)
  | activity (activity : FactorySubagentActivity) (archive : Option Nat)
  | endTurn
  | prepare (captured : Bool)
  | commit
  | rollback

namespace StageSession

def start (stage : FactoryTurnStage) (durable : Option FactoryState) : StageSession :=
  ⟨stage, ⟨durable, none⟩, none, none, false⟩

def mayCall (session : StageSession) (call : FactoryToolCall) : Bool :=
  match session.turn with
  | none => false
  | some .parent => call.stage = session.stage
  | some .review => call.stage = .review

def write (thread : FactoryThreadState) (pending : Option FactoryReviewRecoveryBaseline)
    (session : StageSession) : StageSession :=
  match session.turn with
  | some _ => session
  | none =>
    { session with
      thread := thread
      pending := pending
      outdated := session.outdated ||
        (session.thread.cached.isSome && thread.durable ≠ session.thread.durable) }

def step (session : StageSession) : SessionStep → StageSession
  | .startTurn turn =>
    if session.turn = none then { session with turn := some turn } else session
  | .prompt =>
    if session.turn = none then session
    else { session with thread := session.thread.loadIfNeeded }
  | .tool call =>
    if session.mayCall call then { session with thread := session.thread.call call }
    else session
  | .activity activity archive =>
    if session.turn = none then session
    else { session with thread := session.thread.upsertActivity activity archive }
  | .endTurn => { session with turn := none }
  | .prepare captured =>
    let thread := prepareDetachedReview captured session.thread
    session.write thread (if captured then some thread.load.baseline else none)
  | .commit => session.write (commitDetachedReview session.thread) none
  | .rollback => session.write (rollbackDetachedReview session.thread) none

def run (session : StageSession) (steps : List SessionStep) : StageSession :=
  Machine.run step session steps

def Current (session : StageSession) : Prop :=
  ∀ cached ∈ session.thread.cached, cached = session.thread.load

def Faithful (session : StageSession) : SessionStep → Prop
  | .tool call => session.mayCall call = true → session.Current
  | .activity _ _ => session.turn ≠ none → session.Current
  | .rollback => session.turn = none →
      ∀ baseline ∈ session.pending, (session.step .rollback).thread.load.baseline = baseline
  | _ => True

def UpToDate (session : StageSession) : SessionStep → Prop
  | .tool call => session.mayCall call = true → session.outdated = false
  | .activity _ _ => session.turn ≠ none → session.outdated = false
  | _ => True

instance (session : StageSession) : Decidable session.Current :=
  inferInstanceAs (Decidable (∀ cached ∈ session.thread.cached, cached = session.thread.load))

instance (session : StageSession) : ∀ input, Decidable (session.Faithful input)
  | .tool call =>
    inferInstanceAs (Decidable (session.mayCall call = true → session.Current))
  | .activity _ _ => inferInstanceAs (Decidable (session.turn ≠ none → session.Current))
  | .rollback => inferInstanceAs (Decidable (session.turn = none →
      ∀ baseline ∈ session.pending,
        (session.step .rollback).thread.load.baseline = baseline))
  | .startTurn _ | .prompt | .endTurn | .prepare _ | .commit => isTrue trivial

instance (session : StageSession) : ∀ input, Decidable (session.UpToDate input)
  | .tool call =>
    inferInstanceAs (Decidable (session.mayCall call = true → session.outdated = false))
  | .activity _ _ =>
    inferInstanceAs (Decidable (session.turn ≠ none → session.outdated = false))
  | .startTurn _ | .prompt | .endTurn | .prepare _ | .commit | .rollback => isTrue trivial

end StageSession

end Runtime
