import Factory.Runtime.ResumeIdentification
import Factory.Workspace.WorkspaceAnswers

namespace Runtime

open Coordinator Coordinator.Store ManagedWorkspace Result Table List WorkspaceManager Sample
  ResumePoint

structure WorkspaceSystem where
  deployment : Deployment
  host : Host

inductive WorkspaceStep where
  | runtime (move : RuntimeStep)
  | ensure (elapsed : Nat) (remote : Remote) (jobId : JobId) (request : EnsureWorkspaceRequest)
  | refreshRevision (elapsed : Nat) (jobId : JobId)
  | remove (elapsed : Nat) (jobId : JobId)
  | restore (worker : Nat)
  | recreate (worker : Nat)
  | commit (worker : Nat) (revision : String)
  | disturb (host : Host)

def RuntimeStep.manages : RuntimeStep → Bool
  | .command call => call.command.manages
  | _ => false

namespace WorkspaceSystem

def start (clock : Timestamp) (host : Host) : WorkspaceSystem := ⟨Deployment.start clock, host⟩

def store (w : WorkspaceSystem) : Store := w.deployment.sys.store

def answer (w : WorkspaceSystem) (elapsed : Nat) :
    Host × Except ManagerError Answer → WorkspaceSystem
  | (host, .ok (.store command)) =>
    ⟨⟨w.deployment.sys.step ⟨elapsed, command⟩, w.deployment.workers⟩, host⟩
  | (host, _) => ⟨w.deployment, host⟩

def onWorkspace (w : WorkspaceSystem) (index : Nat) (action : WorkspaceRow → Manage Unit) :
    WorkspaceSystem :=
  match w.deployment.workers[index]?.bind (·.context.workspace) with
  | none => w
  | some workspace => ⟨w.deployment, ((action workspace).run w.host).1⟩

def step (manager : WorkspaceManager) (w : WorkspaceSystem) : WorkspaceStep → WorkspaceSystem
  | .runtime move => if move.manages then w else ⟨w.deployment.step move, w.host⟩
  | .ensure elapsed remote jobId request =>
    w.answer elapsed ((manager.ensure remote w.store jobId request).run w.host)
  | .refreshRevision elapsed jobId =>
    w.answer elapsed ((refreshRevision w.store jobId).run w.host)
  | .remove elapsed jobId =>
    w.answer elapsed ((remove w.store jobId).run w.host)
  | .restore index => w.onWorkspace index manager.restore
  | .recreate index => w.onWorkspace index manager.recreate
  | .commit index revision =>
    w.onWorkspace index (fun workspace => commit workspace.root revision)
  | .disturb host => ⟨w.deployment, host⟩

end WorkspaceSystem

def Unmoved (w : WorkspaceSystem) : WorkspaceStep → Prop
  | .refreshRevision _ jobId =>
    ∀ current ∈ w.store.findWorkspace jobId, ∀ directory ∈ w.host.directories current.root,
      ∀ head ∈ directory.head, head = current.revision
  | _ => True

instance (w : WorkspaceSystem) : (move : WorkspaceStep) → Decidable (Unmoved w move)
  | .refreshRevision _ jobId =>
    inferInstanceAs (Decidable (∀ current ∈ w.store.findWorkspace jobId,
      ∀ directory ∈ w.host.directories current.root,
        ∀ head ∈ directory.head, head = current.revision))
  | .runtime _ | .ensure _ _ _ _ | .remove _ _ | .restore _ | .recreate _ | .commit _ _
  | .disturb _ => isTrue trivial

def worktreeMismatch : ExecutionFailure :=
  .terminal "resume checkpoint does not belong to the current managed worktree"

def Resumable (w : WorkspaceSystem) : WorkspaceStep → Prop
  | .runtime (.claim elapsed scope request locked attemptId _) =>
    ∀ lease store, w.deployment.outcome elapsed
        (.claimRecovery scope request locked attemptId) = .ok (.lease (some lease), store) →
      ∀ context, loadContext store lease = some context → context.job.kind = "factory.task" →
        ∃ workspace, context.workspace = some workspace ∧
          (∀ record, context.lease.selection.resume = .fromCheckpoint record →
            record.workspaceRoot = some workspace.root ∧
              record.workspaceRevision = some workspace.revision) ∧
          ∀ kind, decode context kind workspace.root workspace.revision ≠
            .error worktreeMismatch
  | _ => True

structure Pinned (manager : WorkspaceManager) (workspaces : List WorkspaceRow) : Prop where
  root : ∀ w ∈ workspaces, w.root = manager.worktree w.jobId
  revision : ∀ w ∈ workspaces, w.revision = w.baseRevision

variable {manager : WorkspaceManager} {s t : Store} {d : Deployment} {w : WorkspaceSystem}
  {now : Timestamp} {elapsed : Nat} {jobId : JobId}

open WorkspaceSystem

theorem Pinned.put (h : Pinned manager s.workspaces) {binding : WorkspaceBinding}
    (root : binding.root = manager.worktree binding.jobId)
    (kept : ∀ w ∈ s.workspaces, w.jobId = binding.jobId → binding.revision = w.baseRevision)
    (new : s.workspaces.any (fun w => w.jobId = binding.jobId) = false →
      binding.revision = binding.baseRevision)
    (put : s.putWorkspace binding = .ok t) : Pinned manager t.workspaces := by
  simp only [putWorkspace,bind_ok] at put
  obtain ⟨_,_,_,_,put⟩ := put
  split at put
  · obtain rfl := pure_ok.mp put
    constructor
    · intro w hw
      obtain ⟨v,hv,rfl⟩ := mem_updateWhere.mp hw
      split
      · next own =>
          rw [root,of_decide_eq_true own]
      · exact h.root v hv
    · intro w hw
      obtain ⟨v,hv,rfl⟩ := mem_updateWhere.mp hw
      split
      · next own => exact kept v hv (of_decide_eq_true own)
      · exact h.revision v hv
  · next absent =>
      obtain rfl := pure_ok.mp put
      constructor
      · intro w hw
        rcases mem_append.mp hw with old | added
        · exact h.root w old
        · rw [mem_singleton.mp added]
          exact root
      · intro w hw
        rcases mem_append.mp hw with old | added
        · exact h.revision w old
        · rw [mem_singleton.mp added]
          exact new (by simpa using absent)

theorem Pinned.mark (h : Pinned manager s.workspaces)
    (mark : s.markWorkspaceRemoved jobId = .ok t) :
    Pinned manager t.workspaces := by
  simp only [markWorkspaceRemoved,bind_ok,pure_ok] at mark
  obtain ⟨_,_,rfl⟩ := mark
  constructor
  · intro w hw
    obtain ⟨v,hv,rfl⟩ := mem_updateWhere.mp hw
    split
    · exact h.root v hv
    · exact h.root v hv
  · intro w hw
    obtain ⟨v,hv,rfl⟩ := mem_updateWhere.mp hw
    split
    · exact h.revision v hv
    · exact h.revision v hv

theorem stepped_workspaces {command : Command} (unmanaged : command.manages = false) :
    (d.sys.step ⟨elapsed, command⟩).store.workspaces = d.sys.store.workspaces := by
  unfold System.step
  dsimp only
  cases outcome : d.sys.store.exec (d.sys.clock + elapsed) command with
  | error e => rfl
  | ok result => exact exec_workspaces outcome unmanaged

theorem move_workspaces {move : RuntimeStep} (unmanaged : move.manages = false) :
    (d.step move).sys.store.workspaces = d.sys.store.workspaces := by
  cases move with
  | command call =>
    simp only [Deployment.step]
    split
    · exact stepped_workspaces unmanaged
    · rfl
  | claim elapsed scope request locked attemptId admitted => exact stepped_workspaces rfl
  | reattach index elapsed correlationId =>
    simp only [Deployment.step]
    split
    · rfl
    · split
      · rfl
      · exact stepped_workspaces rfl
  | startTurn index elapsed requestId lineage correlationId =>
    simp only [Deployment.step]
    split
    · rfl
    · exact stepped_workspaces rfl
  | write index elapsed completed role cycle baselines checkpointId =>
    simp only [Deployment.step]
    split
    · rfl
    · split
      · rfl
      · split
        · exact stepped_workspaces rfl
        · rfl
  | complete index elapsed event checkpointId =>
    simp only [Deployment.step]
    split
    · rfl
    · next completion =>
        simp only [Deployment.completion,Option.bind_eq_bind,Option.bind_eq_some_iff,
          Option.pure_def,Option.some.injEq] at completion
        obtain ⟨_,_,_,_,rfl⟩ := completion
        exact stepped_workspaces rfl

structure Placed (manager : WorkspaceManager) (w : WorkspaceSystem) : Prop where
  consistent : Consistent w.deployment
  pinned : Pinned manager w.store.workspaces

variable {workspace : WorkspaceRow}

theorem findWorkspace_some (found : s.findWorkspace jobId = some workspace) :
    workspace ∈ s.workspaces ∧ workspace.jobId = jobId := by
  have own := find?_some found
  exact ⟨mem_of_find?_eq_some found,of_decide_eq_true own⟩

theorem findWorkspace_none (absent : s.findWorkspace jobId = none) :
    ∀ v ∈ s.workspaces, v.jobId ≠ jobId := by
  intro v hv own
  exact find?_eq_none.mp absent v hv (decide_eq_true own)

namespace Placed

theorem bind (h : Placed manager w) {binding : WorkspaceBinding} (host : Host)
    (root : binding.root = manager.worktree binding.jobId)
    (kept : ∀ v ∈ w.store.workspaces, v.jobId = binding.jobId →
      binding.revision = v.baseRevision)
    (new : w.store.workspaces.any (fun v => v.jobId = binding.jobId) = false →
      binding.revision = binding.baseRevision) :
    Placed manager ⟨⟨w.deployment.sys.step ⟨elapsed, .putWorkspace binding⟩,
      w.deployment.workers⟩, host⟩ := by
  have lawful : Lawful w.deployment.sys.store (.putWorkspace binding) := by
    refine ⟨nofun,nofun,?_⟩
    rintro _ ⟨⟩ v hv own
    simp only [WorkspaceRow.worktree,WorkspaceBinding.worktree,Prod.mk.injEq]
    refine ⟨own,?_,?_⟩
    · rw [root,h.pinned.root v hv,own]
    · rw [kept v hv own,h.pinned.revision v hv]
  refine ⟨h.consistent.quiet_step elapsed lawful,?_⟩
  simp only [store]
  unfold System.step
  dsimp only
  cases outcome : w.deployment.sys.store.exec (w.deployment.sys.clock + elapsed)
      (.putWorkspace binding) with
  | error e => exact h.pinned
  | ok result =>
    obtain ⟨_,put,rfl⟩ := map_ok.mp outcome
    exact h.pinned.put root kept new put

theorem ensure (h : Placed manager w) (remote : Remote) (request : EnsureWorkspaceRequest) :
    Placed manager
      (w.answer elapsed ((manager.ensure remote w.store jobId request).run w.host)) := by
  unfold answer
  split
  · next host command ran =>
      rcases ensure_ok ran with ⟨_,_,same⟩ | ⟨revision,based,same⟩
      · cases same
      · cases same
        refine h.bind host rfl ?_ fun _ => rfl
        intro v hv own
        cases found : w.store.findWorkspace jobId with
        | none => exact absurd own (findWorkspace_none found v hv)
        | some existing =>
          obtain ⟨member,owner⟩ := findWorkspace_some found
          obtain rfl := inj_on_of_nodup_map h.consistent.trail.workspaces_unique hv member
            (own.trans owner.symm)
          exact based _ found
  · exact ⟨h.consistent,h.pinned⟩

theorem refreshRevision (h : Placed manager w)
    (unmoved : Unmoved w (.refreshRevision elapsed jobId)) :
    Placed manager (w.answer elapsed
      ((refreshRevision w.store jobId).run w.host)) := by
  unfold answer
  split
  · next host command ran =>
      obtain ⟨current,directory,revision,found,_,present,head,same⟩ :=
        refreshRevision_ok ran
      cases same
      obtain ⟨member,owner⟩ := findWorkspace_some found
      have still : revision = current.revision :=
        unmoved current found directory present revision head
      refine h.bind host ?_ ?_ ?_
      · exact (h.pinned.root current member).trans (congrArg manager.worktree owner)
      · intro v hv own
        obtain rfl := inj_on_of_nodup_map h.consistent.trail.workspaces_unique hv member
          (own.trans owner.symm)
        exact still.trans (h.pinned.revision _ member)
      · intro _
        exact still.trans (h.pinned.revision current member)
  · exact ⟨h.consistent,h.pinned⟩

theorem remove (h : Placed manager w) :
    Placed manager (w.answer elapsed ((remove w.store jobId).run w.host)) := by
  unfold answer
  split
  · next host command ran =>
      obtain ⟨_,_,⟨_,same⟩ | ⟨_,_,same⟩⟩ := remove_ok ran
      · cases same
      · cases same
        refine ⟨h.consistent.quiet_step elapsed (lawful_silent rfl rfl rfl),?_⟩
        simp only [store]
        unfold System.step
        dsimp only
        cases outcome : w.deployment.sys.store.exec (w.deployment.sys.clock + elapsed)
            (.markWorkspaceRemoved jobId) with
        | error e => exact h.pinned
        | ok result =>
          obtain ⟨_,mark,rfl⟩ := map_ok.mp outcome
          exact h.pinned.mark mark
  · exact ⟨h.consistent,h.pinned⟩

theorem onWorkspace (h : Placed manager w) (index : Nat) (action : WorkspaceRow → Manage Unit) :
    Placed manager (w.onWorkspace index action) := by
  unfold WorkspaceSystem.onWorkspace
  split
  · exact h
  · exact ⟨h.consistent,h.pinned⟩

theorem step (h : Placed manager w) {move : WorkspaceStep} (unmoved : Unmoved w move) :
    Placed manager (w.step manager move) := by
  cases move with
  | runtime move =>
    simp only [WorkspaceSystem.step]
    split
    · exact h
    · next unmanaged =>
        refine ⟨h.consistent.step move,?_⟩
        rw [store,move_workspaces (by simpa using unmanaged)]
        exact h.pinned
  | ensure elapsed remote jobId request => exact h.ensure remote request
  | refreshRevision elapsed jobId => exact h.refreshRevision unmoved
  | remove elapsed jobId => exact h.remove
  | restore index | recreate index | commit index revision => exact h.onWorkspace index _
  | disturb host => exact ⟨h.consistent,h.pinned⟩

theorem start (clock : Timestamp) (host : Host) :
    Placed manager (start clock host) where
  consistent := start_consistent clock
  pinned := ⟨fun _ hit => absurd hit not_mem_nil,fun _ hit => absurd hit not_mem_nil⟩

end Placed

variable {context : OperationExecutionContext}

theorem claim_workspace {job : JobRow} {operation : OperationRow} (sound : s.Sound)
    (claim : ClaimContext now s t context job operation)
    (workspaces : t.workspaces = s.workspaces)
    (bound : context.workspace = t.workspaces.find? (fun w => w.jobId = context.job.jobId)) :
    ∃ workspace, context.workspace = some workspace := by
  obtain ⟨j,hj,own,task⟩ := claim.task
  obtain rfl := sound.wellFormed.job_eq hj claim.recoverable.job_mem
    (own.trans claim.recoverable.owned)
  have active : s.workspaceActive j.jobId = true :=
    claim.recoverable.workspace.resolve_left (not_not_intro task)
  obtain ⟨v,hv,owner⟩ := any_eq_true.mp active
  have same : v.jobId = context.job.jobId := by
    rw [(of_decide_eq_true owner).1,claim.selected.job,own]
  rw [bound,workspaces,← Option.isSome_iff_exists,find?_isSome]
  exact ⟨v,hv,decide_eq_true same⟩

theorem claim_stamped {job : JobRow} {operation : OperationRow} (trail : Trail s)
    (claim : ClaimContext now s t context job operation) {workspace : WorkspaceRow}
    (bound : context.workspace = some workspace) {record : CheckpointRecord}
    (resume : context.lease.selection.resume = .fromCheckpoint record) :
    (record.workspaceRoot = some workspace.root ∧
      record.workspaceRevision = some workspace.revision) ∧
      ∃ checkpoint, StageCheckpoint.decode record = .ok checkpoint := by
  obtain ⟨hw,owner⟩ := claim.workspace workspace bound
  rw [claim.selected.resume] at resume
  cases chosen : s.recoveryCheckpoint operation with
  | none =>
    rw [chosen] at resume
    cases resume
  | some c =>
    rw [chosen] at resume
    obtain rfl : c = record := by
      injection resume
    obtain ⟨hc,a,ha,own,o,ho,owned,ownerEq,_⟩ := recoveryCheckpoint_some chosen
    obtain ⟨checkpoint,filed⟩ := trail.filed c hc operation.jobId o.ordinal
      ⟨a,ha,own,o,ho,owned,ownerEq,rfl,claim.task⟩
    exact ⟨filed_placed trail filed hw owner,checkpoint,filed.decoded⟩

theorem decode_matches
    (stamped : ∀ record, context.lease.selection.resume = .fromCheckpoint record →
      (record.workspaceRoot = some workspace.root ∧
        record.workspaceRevision = some workspace.revision) ∧
        ∃ checkpoint, StageCheckpoint.decode record = .ok checkpoint) (kind : OperationKind) :
    decode context kind workspace.root workspace.revision ≠
      .error worktreeMismatch := by
  intro failed
  unfold decode worktreeMismatch at failed
  cases resume : context.lease.selection.resume with
  | fresh =>
    rw [resume] at failed
    simp only [bind_error,ensure_error,pure_error,ExecutionFailure.terminal.injEq,and_false,
      exists_false,or_false] at failed
    exact absurd failed.2 (by decide)
  | fromCheckpoint record =>
    obtain ⟨⟨root,revision⟩,checkpoint,decoded⟩ := stamped record resume
    rw [resume] at failed
    dsimp only at failed
    rw [decodeRecord_placed root revision decoded] at failed
    split at failed
    · cases failed
    · simp only [bind_error,ensure_error,pure_error,ExecutionFailure.terminal.injEq,
        and_false,exists_false,or_false] at failed
      rcases failed with ⟨_,same⟩ | ⟨_,_,_,same⟩
      · exact absurd same (by decide)
      · exact absurd same (by decide)

theorem Placed.resumable (h : Placed manager w) (move : WorkspaceStep) : Resumable w move := by
  cases move with
  | runtime move =>
    cases move with
    | claim elapsed scope request locked attemptId admitted =>
      intro lease store outcome context loaded task
      have lawful : Lawful w.deployment.sys.store
          (.claimRecovery scope request locked attemptId) := lawful_silent rfl rfl rfl
      obtain ⟨sound,_,extended⟩ := h.consistent.advance elapsed lawful
      rw [Consistent.stepped_store outcome] at sound extended
      obtain ⟨job,operation,claim⟩ := claimContext h.consistent.sound.wellFormed
        sound.wellFormed extended.persists outcome loaded task
      obtain ⟨_,_,_,_,_,_,found⟩ := loadContext_some loaded
      obtain ⟨workspace,bound⟩ := claim_workspace h.consistent.sound claim
        (exec_workspaces outcome rfl) found
      have stamped := fun record => @claim_stamped _ _ _ _ _ _ h.consistent.trail claim
        workspace bound record
      exact ⟨workspace,bound,fun record resume => (stamped record resume).1,
        decode_matches stamped⟩
    | command | reattach | startTurn | write | complete => trivial
  | ensure | refreshRevision | remove | restore | recreate | commit | disturb => trivial

theorem workspace_identity (manager : WorkspaceManager) (clock : Timestamp) (host : Host)
    {steps : List WorkspaceStep}
    (unmoved : Machine.Along (step manager) Unmoved
      (start clock host) steps) :
    Machine.Along (step manager) Resumable (start clock host)
      steps := by
  exact @Machine.along_of_invariant _ _ (step manager) _ Unmoved (Placed manager)
    Resumable (fun _ _ unmoved h => h.step unmoved) (fun _ move _ h => h.resumable move)
    (Placed.start clock host) steps unmoved

def WorkspaceSystem.claimed (w : WorkspaceSystem) (elapsed : Nat) (scope : RecoveryScope)
    (request : ClaimRequest) (locked : List OperationId) (attemptId : AttemptId) :
    Option (OperationExecutionContext × WorkspaceRow) :=
  match w.deployment.outcome elapsed (.claimRecovery scope request locked attemptId) with
  | .ok (.lease (some lease), store) => do
      let context ← loadContext store lease
      let workspace ← context.workspace
      pure (context, workspace)
  | _ => none

theorem not_resumable {scope : RecoveryScope} {request : ClaimRequest}
    {locked : List OperationId} {attemptId : AttemptId} {kind : OperationKind} {admitted : Bool}
    (mismatch : ∃ found ∈ w.claimed elapsed scope request locked attemptId,
      found.1.job.kind = "factory.task" ∧
        decode found.1 kind found.2.root found.2.revision = .error worktreeMismatch) :
    ¬ Resumable w (.runtime (.claim elapsed scope request locked attemptId admitted)) := by
  intro resumable
  obtain ⟨⟨context,workspace⟩,found,task,failed⟩ := mismatch
  simp only [claimed] at found
  split at found
  · next lease store outcome =>
      simp only [Option.bind_eq_bind,Option.mem_def,Option.bind_eq_some_iff,Option.pure_def,
        Option.some.injEq,Prod.mk.injEq] at found
      obtain ⟨_,loaded,_,bound,rfl,rfl⟩ := found
      obtain ⟨recorded,same,_,matching⟩ := resumable lease store outcome _ loaded task
      rw [bound] at same
      cases same
      exact matching kind failed
  · cases found

namespace Handoff

def request : ClaimRequest := ⟨"worker", 60, some profile⟩

def claim (attemptId : AttemptId) : RuntimeStep := .claim 1 .any request [] attemptId true

def stage (worker : Nat) (attemptId : AttemptId) (turnId : TurnId)
    (correlationId : CorrelationRecordId) : List WorkspaceStep :=
  [.runtime (claim attemptId),
    .runtime (.startTurn worker 1 turnId ⟨"thread", "thread", turnId⟩ correlationId),
    .runtime (.write worker 1 true .stage 0 ⟨0, none, none⟩ (correlationId ++ "-turn"))]

def settled (worker : Nat) (correlationId : CorrelationRecordId) : WorkspaceStep :=
  .runtime (.complete worker 1 none (correlationId ++ "-stage"))

def planned : List WorkspaceStep :=
  [.runtime (.command ⟨1, .createJob task "job" (fun ordinal => toString ordinal)⟩),
    .ensure 1 remote "job" ⟨"app", "/srv/app", "main"⟩] ++
    stage 0 "plan" "turn-1" "first" ++ [settled 0 "first"]

def committed : List WorkspaceStep :=
  planned ++ stage 1 "execute" "turn-2" "second" ++ [.commit 1 "work", settled 1 "second"]

def begun : WorkspaceSystem := start 0 disk

end Handoff

open Handoff

theorem workspace_identity_committed :
    Machine.Along (step workspaces) Unmoved begun
        (planned ++ [.refreshRevision 1 "job"] ++
          stage 1 "execute" "turn-2" "second" ++
          [.commit 1 "work", settled 1 "second", .runtime (claim "review")]) ∧
      Machine.Along (step workspaces) Resumable begun
        (planned ++ [.refreshRevision 1 "job"] ++
          stage 1 "execute" "turn-2" "second" ++
          [.commit 1 "work", settled 1 "second", .runtime (claim "review")]) := by
  have unmoved : Machine.Along (step workspaces) Unmoved begun
      (planned ++ [.refreshRevision 1 "job"] ++
        stage 1 "execute" "turn-2" "second" ++
        [.commit 1 "work",settled 1 "second",.runtime (claim "review")]) := by
    decide +kernel
  exact ⟨unmoved,workspace_identity workspaces 0 disk unmoved⟩

theorem refreshed_revision_mismatch :
    ¬ Machine.Along (step workspaces) Resumable begun
      (committed ++ [.refreshRevision 1 "job", .runtime (claim "review")]) := by
  intro along
  obtain ⟨_,_,resumable,_⟩ := Machine.along_append.mp along
  revert resumable
  refine @not_resumable _ _ _ _ _ _ .review _ ?_
  decide +kernel

end Runtime
