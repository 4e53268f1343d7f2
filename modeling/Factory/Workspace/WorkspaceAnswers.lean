import Factory.Workspace.WorkspaceManager

namespace ManagedWorkspace

open Coordinator Atomic

variable {host host' : Host} {s : Store} {jobId : JobId} {answer : Answer}

variable {error : ManagerError} {u : Unit} {path repositoryId : String}

theorem demand_ok {c : Prop} [Decidable c] (h : (demand c error).run host = (host', .ok u)) :
    c ∧ host' = host := by
  unfold demand at h
  split at h
  · next holds =>
      cases h
      exact ⟨holds,rfl⟩
  · cases h

theorem onError_ok {action cleanup : Manage Unit}
    (h : (onError action cleanup).run host = (host', .ok u)) :
    action.run host = (host', .ok u) := by
  unfold onError run at h
  unfold run
  dsimp only at h
  split at h
  · exact h
  · next error _ =>
      obtain ⟨_,result⟩ := Prod.mk.inj h
      have failed : ((cleanup >>= fun _ => fail error : Manage Unit).run
          ((action host).final host)).2 = .ok u := result
      rw [run_bind] at failed
      split at failed <;> cases failed

theorem rejectTracked_same {base : Option String}
    (h : (rejectTrackedFactoryArtifacts path repositoryId base).run host = (host', .ok u)) :
    host' = host := by
  rw [rejectTrackedFactoryArtifacts,run_bind_ok (run_look _)] at h
  obtain ⟨worktree,_,listed,rest⟩ := run_bind_eq_ok h
  obtain ⟨rfl,_⟩ := require_ok listed
  obtain ⟨head,_,parsed,last⟩ := run_bind_eq_ok rest
  obtain ⟨rfl,_⟩ := require_ok parsed
  rw [run_bind_ok (run_look _)] at last
  exact (demand_ok last).2

theorem checkOut_ok {branch revision : String}
    (h : (checkOut path repositoryId branch revision).run host = (host', .ok u)) :
    ∃ directory, host'.directories path = some directory ∧ directory.head = some revision := by
  rw [checkOut,run_bind_ok (run_look _)] at h
  cases h
  exact ⟨_,Function.update_self _ _ _,rfl⟩

theorem revParseHead_ok {revision : String}
    (h : (revParseHead path).run host = (host', .ok revision)) :
    (∃ directory, host.directories path = some directory ∧ directory.head = some revision) ∧
      host' = host := by
  rw [revParseHead,run_bind_ok (run_look _)] at h
  obtain ⟨rfl,found⟩ := require_ok h
  exact ⟨Option.bind_eq_some_iff.mp found,rfl⟩

namespace WorkspaceManager

variable {manager : WorkspaceManager} {remote : Remote} {request : EnsureWorkspaceRequest}

theorem materialize_ok {revision : String}
    (h : (manager.materialize jobId request revision).run host = (host', .ok answer)) :
    answer = .store (.putWorkspace ⟨jobId, request.repositoryId, request.repository,
      request.baseRef, revision, "factory/" ++ jobId, manager.worktree jobId, revision⟩) := by
  unfold materialize at h
  obtain ⟨_,_,_,h⟩ := run_bind_eq_ok h
  obtain ⟨_,_,placed,h⟩ := run_bind_eq_ok h
  obtain ⟨directory,present,checkedOut⟩ := checkOut_ok placed
  obtain ⟨_,_,accepted,rest⟩ := run_bind_eq_ok h
  obtain rfl := rejectTracked_same (onError_ok accepted)
  obtain ⟨head,_,parsed,last⟩ := run_bind_eq_ok rest
  obtain ⟨⟨found,there,headEq⟩,rfl⟩ := revParseHead_ok parsed
  obtain rfl : directory = found := Option.some.inj (present.symm.trans there)
  obtain rfl : revision = head := Option.some.inj (checkedOut.symm.trans headEq)
  cases last
  rfl

theorem ensure_ok (h : (manager.ensure remote s jobId request).run host = (host', .ok answer)) :
    (∃ existing, s.findWorkspace jobId = some existing ∧ answer = .record existing) ∨
      ∃ revision, (∀ existing, s.findWorkspace jobId = some existing →
          revision = existing.baseRevision) ∧
        answer = .store (.putWorkspace ⟨jobId, request.repositoryId, request.repository,
          request.baseRef, revision, "factory/" ++ jobId, manager.worktree jobId, revision⟩) := by
  unfold ensure at h
  obtain ⟨_,_,_,h⟩ := run_bind_eq_ok h
  obtain ⟨_,_,_,h⟩ := run_bind_eq_ok h
  cases found : s.findWorkspace jobId with
  | none =>
    rw [found] at h
    obtain ⟨revision,_,_,h⟩ := run_bind_eq_ok h
    exact .inr ⟨revision,nofun,materialize_ok h⟩
  | some existing =>
    rw [found] at h
    obtain ⟨_,_,_,h⟩ := run_bind_eq_ok h
    obtain ⟨reuse,_,_,h⟩ := run_bind_eq_ok h
    split at h
    · cases h
      exact .inl ⟨existing,rfl,rfl⟩
    · obtain ⟨_,_,_,h⟩ := run_bind_eq_ok h
      obtain ⟨_,_,_,h⟩ := run_bind_eq_ok h
      refine .inr ⟨existing.baseRevision,?_,materialize_ok h⟩
      rintro _ ⟨⟩
      rfl

theorem refreshRevision_ok (h : (refreshRevision s jobId).run host = (host', .ok answer)) :
    ∃ current directory revision, s.findWorkspace jobId = some current ∧
      current.status = .active ∧ host.directories current.root = some directory ∧
      directory.head = some revision ∧
      answer = .store (.putWorkspace ⟨jobId, current.repositoryId, current.repository,
        current.baseRef, current.baseRevision, current.branchName, current.root, revision⟩) := by
  unfold refreshRevision load at h
  obtain ⟨current,_,loaded,rest⟩ := run_bind_eq_ok h
  obtain ⟨rfl,found⟩ := require_ok loaded
  obtain ⟨_,_,checked,reading⟩ := run_bind_eq_ok rest
  obtain ⟨active,rfl⟩ := demand_ok checked
  obtain ⟨revision,_,parsed,last⟩ := run_bind_eq_ok reading
  obtain ⟨⟨directory,present,head⟩,rfl⟩ := revParseHead_ok parsed
  cases last
  exact ⟨current,directory,revision,found,active,present,head,rfl⟩

theorem remove_ok (h : (remove s jobId).run host = (host', .ok answer)) :
    ∃ current, s.findWorkspace jobId = some current ∧
      (current.status = .removed ∧ answer = .record current ∨
        current.status ≠ .removed ∧ (∀ e ∈ s.findEnvironment jobId, e.status = .released) ∧
          answer = .store (.markWorkspaceRemoved jobId)) := by
  unfold remove load at h
  obtain ⟨current,_,loaded,rest⟩ := run_bind_eq_ok h
  obtain ⟨rfl,found⟩ := require_ok loaded
  refine ⟨current,found,?_⟩
  split at rest
  · next removed =>
      cases rest
      exact .inl ⟨removed,rfl⟩
  · next present =>
      refine .inr ⟨present,?_⟩
      cases environment : s.findEnvironment jobId with
      | none =>
        rw [environment] at rest
        obtain ⟨_,_,_,last⟩ := run_bind_eq_ok rest
        cases last
        exact ⟨nofun,rfl⟩
      | some row =>
        rw [environment] at rest
        obtain ⟨_,_,checked,removing⟩ := run_bind_eq_ok rest
        obtain ⟨released,rfl⟩ := demand_ok checked
        obtain ⟨_,_,_,last⟩ := run_bind_eq_ok removing
        cases last
        refine ⟨?_,rfl⟩
        rintro _ ⟨⟩
        exact released

end WorkspaceManager

namespace Sample

def repository : Mirror :=
  ⟨"/srv/app", fun name => if name = "refs/remotes/origin/main" ∨ name = "base" then some "base"
    else none, fun _ => false⟩

def remote : Remote := ⟨fun mirror => .ok mirror, fun _ => .ok repository, "/factory/mirrors/new"⟩

def workspaces : WorkspaceManager := ⟨"/factory/jobs"⟩

def disk : Host := ⟨fun _ => none, fun _ => none⟩

def task : JobDefinition :=
  ⟨"factory.task",
    .object [("executionProfile",
      .object [("provider", .string "openai"), ("model", .string "codex")])],
    [⟨"codex.plan", .object [], 3⟩, ⟨"codex.execute", .object [], 3⟩,
      ⟨"codex.review", .object [], 3⟩, ⟨"codex.remediate", .object [], 3⟩]⟩

def profile : ExecutionProfile := ⟨"openai", "codex"⟩

end Sample

end ManagedWorkspace
