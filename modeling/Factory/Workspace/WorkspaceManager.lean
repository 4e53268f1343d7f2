import Factory.Coordinator.Commands
import Factory.Library.Atomic

namespace Coordinator

def ExecutionEnvironmentStatus.debug : ExecutionEnvironmentStatus → String
  | .provisioning => "Provisioning"
  | .ready => "Ready"
  | .releasing => "Releasing"
  | .released => "Released"
  | .failed => "Failed"

def Store.findWorkspace (s : Store) (jobId : JobId) : Option WorkspaceRow :=
  s.workspaces.find? (fun workspace => workspace.jobId = jobId)

end Coordinator

namespace ManagedWorkspace

open Coordinator

inductive ManagerError where
  | coordinator (error : CoordinatorError)
  | workspace (message : String)
  | rebindRequired (jobId : JobId) (reason : String)
  | io (operation : String)
  | git (command : String)
  deriving DecidableEq

structure EnsureWorkspaceRequest where
  repositoryId : String
  repository : String
  baseRef : String
  deriving DecidableEq

structure Mirror where
  origin : String
  resolve : String → Option String
  tracksFactory : String → Bool

structure Directory where
  commonDir : Option String
  head : Option String
  branch : Option String
  indexesFactory : Bool
  changes : List String
  deriving DecidableEq

structure Host where
  mirrors : String → Option Mirror
  directories : String → Option Directory

structure Remote where
  refresh : Mirror → Except ManagerError Mirror
  create : String → Except ManagerError Mirror
  candidate : String

inductive Answer where
  | record (workspace : WorkspaceRow)
  | store (command : Command)

abbrev Manage (α : Type) := Atomic Host ManagerError α

def attempt {α : Type} (result : Except ManagerError α) : Manage α :=
  match result with
  | .ok value => pure value
  | .error error => Atomic.fail error

def demand (c : Prop) [Decidable c] (error : ManagerError) : Manage Unit :=
  if c then pure () else Atomic.fail error

def onError (action cleanup : Manage Unit) : Manage Unit := fun host =>
  match (action host).result with
  | .ok _ => action host
  | .error error =>
    let rest := (cleanup >>= fun _ => Atomic.fail error : Manage Unit) ((action host).final host)
    ⟨(action host).states ++ rest.states, rest.result⟩

def setMirror (repositoryId : String) (mirror : Option Mirror) : Manage Unit :=
  Atomic.effect (fun host =>
    { host with mirrors := Function.update host.mirrors repositoryId mirror })

def setDirectory (path : String) (directory : Option Directory) : Manage Unit :=
  Atomic.effect (fun host =>
    { host with directories := Function.update host.directories path directory })

def commit (path revision : String) : Manage Unit :=
  Atomic.effect (fun host =>
    { host with
      directories := Function.update host.directories path
        ((host.directories path).map ({ · with head := some revision })) })

def tracksFactory (repositoryId revision : String) (host : Host) : Bool :=
  (host.mirrors repositoryId).any (·.tracksFactory revision)

def revParseHead (path : String) : Manage String := do
  let directory ← Atomic.look (fun host => host.directories path)
  Atomic.require (directory.bind (·.head)) (.git "rev-parse HEAD")

def mirrorRevisionCandidates (baseRef : String) : List String :=
  if baseRef = "HEAD" then ["refs/remotes/origin/HEAD"]
  else
    match Text.stripPrefix "refs/heads/" baseRef with
    | some branch => ["refs/remotes/origin/" ++ branch]
    | none =>
      match Text.stripPrefix "origin/" baseRef with
      | some branch => ["refs/remotes/origin/" ++ branch]
      | none =>
        if (Text.stripPrefix "refs/" baseRef).isSome then [baseRef]
        else ["refs/remotes/origin/" ++ baseRef, "refs/tags/" ++ baseRef, baseRef]

def resolveMirrorRevision (mirror : Mirror) (baseRef : String) : Option String :=
  (mirrorRevisionCandidates baseRef).findSome? mirror.resolve

def unresolvedBaseRef (repository baseRef : String) : ManagerError :=
  .workspace ("repository " ++ repository ++ " does not resolve requested base ref " ++ baseRef ++
    " after update")

def ensureMirrorHasRevision (repositoryId revision : String) : Manage Unit := do
  let mirror ← Atomic.look (fun host => host.mirrors repositoryId)
  demand (mirror.bind (·.resolve revision) = some revision)
    (.workspace ("managed cache no longer contains recorded base revision " ++ revision))

def ensureMirror (remote : Remote) (request : EnsureWorkspaceRequest) : Manage String := do
  let existing ← Atomic.look (fun host => host.mirrors request.repositoryId)
  match existing.filter (fun mirror => mirror.origin = request.repository) with
  | some mirror => do
      let refreshed ← attempt (remote.refresh mirror)
      setMirror request.repositoryId (some refreshed)
      Atomic.require (resolveMirrorRevision refreshed request.baseRef)
        (unresolvedBaseRef request.repository request.baseRef)
  | none => do
      setMirror request.repositoryId none
      let candidate ← attempt (remote.create request.repository)
      demand (candidate.origin = request.repository)
        (.workspace ("git initialization did not create a bare remote-tracking cache with the " ++
          "expected origin at " ++ remote.candidate))
      let revision ← Atomic.require (resolveMirrorRevision candidate request.baseRef)
        (unresolvedBaseRef request.repository request.baseRef)
      setMirror request.repositoryId (some candidate)
      pure revision

def validateRequest (request : EnsureWorkspaceRequest) : Except ManagerError Unit := do
  Result.ensure (¬ Text.isBlank request.repositoryId)
    (.coordinator (.invalidInput "workspace repositoryId must not be empty"))
  Result.ensure (¬ Text.isBlank request.repository)
    (.coordinator (.invalidInput "workspace repository must not be empty"))
  Result.ensure (¬ Text.isBlank request.baseRef)
    (.coordinator (.invalidInput "workspace baseRef must not be empty"))

def linkedWorktreeMatches (path repositoryId : String) : Manage Bool := do
  let directory ← Atomic.look (fun host => host.directories path)
  match directory.bind (·.commonDir) with
  | none => pure false
  | some commonDir => do
      let mirror ← Atomic.look (fun host => host.mirrors repositoryId)
      demand mirror.isSome (.io "canonicalize")
      pure (commonDir = repositoryId)

def rejectTrackedFactoryArtifacts (path repositoryId : String) (baseRevision : Option String) :
    Manage Unit := do
  let directory ← Atomic.look (fun host => host.directories path)
  let worktree ← Atomic.require directory (.git "ls-files")
  let head ← Atomic.require worktree.head (.git "ls-tree -r --name-only HEAD")
  let host ← Atomic.look id
  demand (¬ (worktree.indexesFactory ∨ tracksFactory repositoryId head host ∨
      baseRevision.any (tracksFactory repositoryId · host)))
    (.coordinator (.invalidInput ("repository tracks the reserved top-level `.factory` path; " ++
      "Factory owns this path for job artifacts")))

def removeWorktree (path repositoryId : String) : Manage Unit := do
  let directory ← Atomic.look (fun host => host.directories path)
  match directory with
  | none => pure ()
  | some worktree => do
      demand (worktree.commonDir = some repositoryId) (.git "worktree remove --force")
      setDirectory path none

def checkOut (path repositoryId branch revision : String) : Manage Unit := do
  let host ← Atomic.look id
  setDirectory path (some ⟨some repositoryId, some revision, some branch,
    tracksFactory repositoryId revision host, []⟩)

def validatePristine (workspace : WorkspaceRow) (path : String) : Manage Unit := do
  let head ← revParseHead path
  let directory ← Atomic.look (fun host => host.directories path)
  let worktree ← Atomic.require directory (.git "status")
  demand (head = workspace.revision ∧ worktree.branch = some workspace.branchName ∧
      worktree.changes = [])
    (.workspace ("managed worktree for job " ++ workspace.jobId ++ " drifted from revision " ++
      workspace.revision ++ " (HEAD " ++ head ++ "; branch " ++
      worktree.branch.getD "detached" ++ "; changes: " ++
      (if worktree.changes = [] then "none"
        else ", ".intercalate (worktree.changes.take 20)) ++ ")"))

structure WorkspaceManager where
  jobsRoot : String
  deriving DecidableEq

namespace WorkspaceManager

variable (manager : WorkspaceManager)

def worktree (jobId : JobId) : String := manager.jobsRoot ++ "/" ++ jobId

def managedWorktreePath (workspace : WorkspaceRow) : Manage String := do
  demand (workspace.status = .active)
    (.workspace ("workspace for job " ++ workspace.jobId ++ " is not active"))
  demand (workspace.root = manager.worktree workspace.jobId)
    (.workspace ("workspace for job " ++ workspace.jobId ++ " is outside the managed jobs root"))
  pure (manager.worktree workspace.jobId)

def reusable (existing : WorkspaceRow) : Manage Bool := do
  let directory ← Atomic.look (fun host => host.directories existing.root)
  if existing.status = .active ∧ directory.isSome then do
    let path ← manager.managedWorktreePath existing
    let linked ← linkedWorktreeMatches path existing.repositoryId
    if linked then do
      rejectTrackedFactoryArtifacts path existing.repositoryId (some existing.baseRevision)
      pure true
    else pure false
  else pure false

def materialize (jobId : JobId) (request : EnsureWorkspaceRequest) (revision : String) :
    Manage Answer := do
  let path := manager.worktree jobId
  let branchName := "factory/" ++ jobId
  removeWorktree path request.repositoryId
  checkOut path request.repositoryId branchName revision
  onError (rejectTrackedFactoryArtifacts path request.repositoryId none) (setDirectory path none)
  let head ← revParseHead path
  pure (.store (.putWorkspace ⟨jobId, request.repositoryId, request.repository, request.baseRef,
    head, branchName, path, head⟩))

def ensure (remote : Remote) (s : Store) (jobId : JobId) (request : EnsureWorkspaceRequest) :
    Manage Answer := do
  attempt (validateRequest request)
  demand (s.findJob jobId).isSome (.coordinator (.jobNotFound jobId))
  match s.findWorkspace jobId with
  | none => do
      let revision ← ensureMirror remote request
      manager.materialize jobId request revision
  | some existing => do
      demand (existing.repositoryId = request.repositoryId ∧
          existing.repository = request.repository ∧ existing.baseRef = request.baseRef)
        (.coordinator (.invalidInput ("job " ++ jobId ++
          " is already bound to repository identity " ++ existing.repositoryId ++ " at " ++
          existing.baseRef)))
      let reuse ← manager.reusable existing
      if reuse then pure (.record existing)
      else do
        let _ ← ensureMirror remote request
        ensureMirrorHasRevision request.repositoryId existing.baseRevision
        manager.materialize jobId request existing.baseRevision

def load (s : Store) (jobId : JobId) : Manage WorkspaceRow :=
  Atomic.require (s.findWorkspace jobId) (.coordinator (.workspaceNotFound jobId))

def refreshRevision (s : Store) (jobId : JobId) : Manage Answer := do
  let current ← load s jobId
  demand (current.status = .active)
    (.workspace ("workspace for job " ++ jobId ++ " is not active"))
  let revision ← revParseHead current.root
  pure (.store (.putWorkspace ⟨jobId, current.repositoryId, current.repository, current.baseRef,
    current.baseRevision, current.branchName, current.root, revision⟩))

def mirrorAvailable (workspace : WorkspaceRow) : Manage Unit := do
  let mirror ← Atomic.look (fun host => host.mirrors workspace.repositoryId)
  demand (mirror.any (fun mirror => mirror.origin = workspace.repository))
    (.workspace ("managed mirror for job " ++ workspace.jobId ++
      " is unavailable or does not match " ++ workspace.repository))
  ensureMirrorHasRevision workspace.repositoryId workspace.revision

def restore (workspace : WorkspaceRow) : Manage Unit := do
  let path ← manager.managedWorktreePath workspace
  mirrorAvailable workspace
  let linked ← linkedWorktreeMatches path workspace.repositoryId
  demand linked (.rebindRequired workspace.jobId
    ("managed linked worktree is missing or does not use its recorded Git common directory"))
  checkOut path workspace.repositoryId workspace.branchName workspace.revision
  validatePristine workspace path

def recreate (workspace : WorkspaceRow) : Manage Unit := do
  let path ← manager.managedWorktreePath workspace
  mirrorAvailable workspace
  setDirectory path none
  checkOut path workspace.repositoryId workspace.branchName workspace.revision
  validatePristine workspace path

def remove (s : Store) (jobId : JobId) : Manage Answer := do
  let current ← load s jobId
  if current.status = .removed then pure (.record current)
  else
    match s.findEnvironment jobId with
    | none => do
        removeWorktree current.root current.repositoryId
        pure (.store (.markWorkspaceRemoved jobId))
    | some environment => do
        demand (environment.status = .released)
          (.coordinator (.invalidInput ("workspace for job " ++ jobId ++
            " cannot be removed while execution environment " ++ environment.environmentId ++
            " generation " ++ toString environment.generation ++ " is " ++
            environment.status.debug)))
        removeWorktree current.root current.repositoryId
        pure (.store (.markWorkspaceRemoved jobId))

end WorkspaceManager

end ManagedWorkspace
