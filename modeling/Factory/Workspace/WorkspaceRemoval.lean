import Factory.Coordinator.LapsedRecovery
import Factory.Coordinator.WorkspaceTenure
import Factory.Workspace.WorkspaceAnswers

namespace ManagedWorkspace

open Coordinator Coordinator.Store Result Sample WorkspaceManager

structure Site where
  sys : System
  host : Host

inductive SiteStep where
  | command (call : Call)
  | ensure (elapsed : Nat) (remote : Remote) (jobId : JobId) (request : EnsureWorkspaceRequest)
  | refreshRevision (elapsed : Nat) (jobId : JobId)
  | remove (elapsed : Nat) (jobId : JobId)
  | disturb (host : Host)

namespace Site

def start (clock : Timestamp) (host : Host) : Site := ⟨System.init clock, host⟩

def answer (site : Site) (elapsed : Nat) : Host × Except ManagerError Answer → Site
  | (host, .ok (.store command)) => ⟨site.sys.step ⟨elapsed, command⟩, host⟩
  | (host, _) => ⟨site.sys, host⟩

def step (manager : WorkspaceManager) (site : Site) : SiteStep → Site
  | .command call => if call.command.manages then site else ⟨site.sys.step call, site.host⟩
  | .ensure elapsed remote jobId request =>
    site.answer elapsed ((manager.ensure remote site.sys.store jobId request).run site.host)
  | .refreshRevision elapsed jobId =>
    site.answer elapsed
      ((refreshRevision site.sys.store jobId).run site.host)
  | .remove elapsed jobId =>
    site.answer elapsed ((remove site.sys.store jobId).run site.host)
  | .disturb host => ⟨site.sys, host⟩

end Site

def Vacant (site : Site) : SiteStep → Prop
  | .remove _ jobId =>
    ∀ job ∈ site.sys.store.jobs, job.jobId = jobId → job.kind = "factory.task" →
      site.sys.store.runningAttempts jobId ≠ [] →
        ∃ e ∈ site.sys.store.findEnvironment jobId, e.status ≠ .released
  | _ => True

instance (site : Site) : (move : SiteStep) → Decidable (Vacant site move)
  | .remove _ jobId =>
    inferInstanceAs (Decidable (∀ job ∈ site.sys.store.jobs, job.jobId = jobId →
      job.kind = "factory.task" → site.sys.store.runningAttempts jobId ≠ [] →
        ∃ e ∈ site.sys.store.findEnvironment jobId, e.status ≠ .released))
  | .command _ | .ensure _ _ _ _ | .refreshRevision _ _ | .disturb _ => isTrue trivial

structure Retained (s : Store) : Prop where
  workspace : ∀ job ∈ s.jobs, job.kind = "factory.task" →
    (job.status = .running ∨ job.status = .cancelling) →
      s.runningAttempts job.jobId ≠ [] → s.workspaceActive job.jobId = true
  candidate : ∀ job ∈ s.jobs, job.kind = "factory.task" →
    ∀ a ∈ s.runningAttempts job.jobId, ∀ now, a.leaseExpiresAt ≤ now →
      (∃ o, (job, o) ∈ s.recoveryRows now none none ∧ o.operationId = a.operationId) ∧
        ∀ profile locked, job.profileMatches profile = true → a.operationId ∉ locked →
          s.recoveryCandidate now none (some a.operationId) profile locked = some a.operationId
  acknowledged : ∀ job ∈ s.jobs, job.kind = "factory.task" → job.status = .cancelling →
    ∀ a ∈ s.runningAttempts job.jobId, ∀ now, a.leaseExpiresAt ≤ now →
      ∀ request locked attemptId, request.leaseSeconds ≠ 0 →
        job.profileMatches request.executionProfile = true → a.operationId ∉ locked →
          a.leaseEpoch + 1 ≤ i64Max →
            (∀ e ∈ s.findEnvironment job.jobId, e.generation ≤ i64Max) →
              ∃ lease t, s.claimRecovery now (.operation a.operationId) request locked attemptId =
                  .ok (some lease, t) ∧ lease.attempt.attemptId = a.attemptId ∧
                ∃ u, t.releaseAndAcknowledge now lease.fence = .ok u ∧
                  ∃ j ∈ u.jobs, j.jobId = job.jobId ∧ j.status = .cancelled

open Site

theorem retained {s : Store} (sound : s.Sound) (housed : s.Housed) : Retained s where
  workspace := fun job hjob task _ busy => housed job hjob task busy
  candidate := by
    intro job hjob task a ha now expired
    obtain ⟨o,lapsed⟩ := sound.lapsed hjob ha expired
      (.inr (housed job hjob task (List.ne_nil_of_mem ha)))
    refine ⟨⟨o,lapsed.row_mem nofun nofun,lapsed.owned.symm⟩,?_⟩
    intro profile locked profiled free
    rw [lapsed.owned] at free ⊢
    exact lapsed.candidate profiled free
  acknowledged := by
    intro job hjob task cancelling a ha now expired request locked attemptId positive profiled
      free epoch generation
    obtain ⟨o,lapsed⟩ := sound.lapsed hjob ha expired
      (.inr (housed job hjob task (List.ne_nil_of_mem ha)))
    rw [lapsed.owned] at free ⊢
    exact lapsed.acknowledgeable sound cancelling positive profiled free epoch generation

structure Tenanted (site : Site) : Prop where
  sound : site.sys.store.Sound
  housed : site.sys.store.Housed

namespace Tenanted

variable {manager : WorkspaceManager} {site : Site} {elapsed : Nat} {jobId : JobId}

theorem advance (h : Tenanted site) (command : Command) (host : Host)
    (housed : ∀ response store, site.sys.store.exec (site.sys.clock + elapsed) command =
      .ok (response, store) → store.Sound → store.Housed) :
    Tenanted ⟨site.sys.step ⟨elapsed, command⟩, host⟩ := by
  have sound := site.sys.sound_step ⟨elapsed,command⟩ h.sound
  refine ⟨sound,?_⟩
  revert sound
  unfold System.step
  dsimp only
  cases outcome : site.sys.store.exec (site.sys.clock + elapsed) command with
  | error e => exact fun _ => h.housed
  | ok result => exact fun sound => housed _ _ outcome sound

theorem bind (h : Tenanted site) (binding : WorkspaceBinding) (host : Host) :
    Tenanted ⟨site.sys.step ⟨elapsed, .putWorkspace binding⟩, host⟩ := by
  refine h.advance _ host ?_
  intro response store outcome _
  obtain ⟨_,put,same⟩ := map_ok.mp outcome
  cases same
  exact putWorkspace_housed h.housed put

theorem ensure (h : Tenanted site) (remote : Remote) (request : EnsureWorkspaceRequest) :
    Tenanted (site.answer elapsed
      ((manager.ensure remote site.sys.store jobId request).run site.host)) := by
  unfold answer
  split
  · next host command ran =>
      rcases ensure_ok ran with ⟨_,_,same⟩ | ⟨revision,_,same⟩
      · cases same
      · cases same
        exact h.bind _ host
  · exact ⟨h.sound,h.housed⟩

theorem refreshRevision (h : Tenanted site) :
    Tenanted (site.answer elapsed
      ((refreshRevision site.sys.store jobId).run site.host)) := by
  unfold answer
  split
  · next host command ran =>
      obtain ⟨_,_,_,_,_,_,_,same⟩ := refreshRevision_ok ran
      cases same
      exact h.bind _ host
  · exact ⟨h.sound,h.housed⟩

theorem remove (h : Tenanted site) (vacant : Vacant site (.remove elapsed jobId)) :
    Tenanted (site.answer elapsed
      ((remove site.sys.store jobId).run site.host)) := by
  unfold answer
  split
  · next host command ran =>
      obtain ⟨_,_,⟨_,same⟩ | ⟨_,released,same⟩⟩ := remove_ok ran
      · cases same
      · cases same
        refine h.advance _ host ?_
        intro response store outcome _
        obtain ⟨_,mark,same⟩ := map_ok.mp outcome
        cases same
        refine markWorkspaceRemoved_housed h.housed ?_ mark
        intro job hjob own task
        by_contra busy
        obtain ⟨e,found,unreleased⟩ := vacant job hjob own task busy
        exact unreleased (released e found)
  · exact ⟨h.sound,h.housed⟩

theorem step (h : Tenanted site) {move : SiteStep} (vacant : Vacant site move) :
    Tenanted (site.step manager move) := by
  cases move with
  | command call =>
    simp only [Site.step]
    split
    · exact h
    · next unmanaged =>
        refine h.advance call.command site.host ?_
        intro response store outcome sound
        exact h.housed.exec h.sound sound outcome (by simpa using unmanaged)
  | ensure elapsed remote jobId request => exact h.ensure remote request
  | refreshRevision elapsed jobId => exact h.refreshRevision
  | remove elapsed jobId => exact h.remove vacant
  | disturb host => exact ⟨h.sound,h.housed⟩

end Tenanted

theorem removal_retains (manager : WorkspaceManager) (clock : Timestamp) (host : Host)
    {steps : List SiteStep}
    (vacant : Machine.Along (step manager) Vacant (start clock host) steps) :
    Retained (Machine.run (step manager) (start clock host) steps).sys.store := by
  have tenanted := @Machine.along_invariant _ _ (step manager) (start clock host) Vacant
    Tenanted (fun _ _ vacant h => h.step vacant) ⟨Store.empty_sound,empty_housed⟩ steps vacant
  exact retained tenanted.sound tenanted.housed

namespace Sample

def site : Site := start 0 disk

def claimed : List SiteStep :=
  [.command ⟨1, .createJob task "job" (fun ordinal => toString ordinal)⟩,
    .ensure 1 remote "job" ⟨"app", "/srv/app", "main"⟩,
    .command ⟨1, .claimRecovery .any ⟨"worker", 60, some profile⟩ [] "attempt"⟩]

def fence : AttemptFence := ⟨"attempt", "worker", 1⟩

end Sample

theorem removal_retains_provisioning :
    Machine.Along (step workspaces) Vacant site
        (claimed ++ [.command ⟨1, .ensureExecutionEnvironment fence "docker" "env"⟩,
          .command ⟨1, .cancelJob "job"⟩, .remove 1 "job"]) ∧
      Retained (Machine.run (step workspaces) site
        (claimed ++ [.command ⟨1, .ensureExecutionEnvironment fence "docker" "env"⟩,
          .command ⟨1, .cancelJob "job"⟩, .remove 1 "job"])).sys.store := by
  have vacant : Machine.Along (step workspaces) Vacant site
      (claimed ++ [.command ⟨1,.ensureExecutionEnvironment fence "docker" "env"⟩,
        .command ⟨1,.cancelJob "job"⟩,.remove 1 "job"]) := by
    decide +kernel
  exact ⟨vacant,removal_retains workspaces 0 disk vacant⟩

theorem removal_strands :
    ∃ s, s = (Machine.run (step workspaces) site
        (claimed ++ [.command ⟨1, .cancelJob "job"⟩, .remove 1 "job"])).sys.store ∧
      (∃ job ∈ s.jobs, job.kind = "factory.task" ∧ job.status = .cancelling ∧
        (∃ a ∈ s.runningAttempts job.jobId, a.leaseExpiresAt ≤ 61000000) ∧
        s.workspaceActive job.jobId = false) ∧
      s.recoveryCandidate 61000000 none none (some profile) [] = none := by
  refine ⟨_,rfl,?_⟩
  decide +kernel

end ManagedWorkspace
