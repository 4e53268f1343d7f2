import Factory.Extension.SubagentProjection

namespace Extension

open Json List

section Retention

variable {digest : Value → String} {archives : Bool} {archive more : List ArchivedEvent}
  {start state old new : FactoryState} {activity : FactorySubagentActivity}

def Archived (archive : List ArchivedEvent) (activity : FactorySubagentActivity) : Prop :=
  ∃ e ∈ archive, e.payload = activityPayload activity

def AllArchived (archive : List ArchivedEvent) (state : FactoryState) :
    Prop :=
  ∀ a ∈ state.subagents, Archived archive a

def Acknowledged (digest : Value → String) (archive : List ArchivedEvent) (state : FactoryState)
    (activity : FactorySubagentActivity) : Prop :=
  ∃ e, archivedUnder (activityKey digest activity) archive = some e ∧
    e.payload = activityPayload activity ∧
    ∃ h ∈ state.subagentHistory, e.sequence ≤ h.latestSequence

structure Follows (archives : Bool) (archive : List ArchivedEvent)
    (old new : FactoryState) : Prop where
  kept : ∀ a ∈ old.subagents,
    (∃ b ∈ new.subagents, activityPayload b = activityPayload a) ∨
      Archived archive a ∨ archives = false ∧ ∃ b ∈ new.subagents, b.logical = a.logical
  created : ∀ b ∈ new.subagents, (∃ a ∈ old.subagents, a.logical = b.logical) →
    ∃ a ∈ old.subagents, a.logical = b.logical ∧ a.createdAt = b.createdAt
  distinct : ∀ key, new.entries key ≤ max 1 (old.entries key)
  history : ∀ h ∈ old.subagentHistory, ∃ h' ∈ new.subagentHistory,
    h.latestSequence ≤ h'.latestSequence

theorem archivedUnder_append {key : String} {e : ArchivedEvent}
    (h : archivedUnder key archive = some e) : archivedUnder key (archive ++ more) = some e := by
  rw [archivedUnder] at h
  rw [archivedUnder,find?_append,h]
  rfl

theorem archived_of_under {key : String} {e : ArchivedEvent}
    (h : archivedUnder key archive = some e) (payload : e.payload = activityPayload activity) :
    Archived archive activity :=
  ⟨e,mem_of_find?_eq_some h,payload⟩

theorem Archived.append (h : Archived archive activity) : Archived (archive ++ more) activity := by
  obtain ⟨e,stored,payload⟩ := h
  exact ⟨e,mem_append_left _ stored,payload⟩

theorem AllArchived.append (h : AllArchived archive state) :
    AllArchived (archive ++ more) state := fun a member => (h a member).append

theorem Follows.refl (state : FactoryState) : Follows archives archive state state where
  kept := fun a member => .inl ⟨a,member,rfl⟩
  created := fun b member _ => ⟨b,member,rfl,rfl⟩
  distinct := fun _ => Nat.le_max_right _ _
  history := fun h stored => ⟨h,stored,le_rfl⟩

theorem Follows.append (h : Follows archives archive old new) :
    Follows archives (archive ++ more) old new where
  kept := by
    intro a member
    rcases h.kept a member with kept | archived | replaced
    · exact .inl kept
    · exact .inr (.inl archived.append)
    · exact .inr (.inr replaced)
  created := h.created
  distinct := h.distinct
  history := h.history

theorem Acknowledged.append (h : Acknowledged digest archive state activity) :
    Acknowledged digest (archive ++ more) state activity := by
  obtain ⟨e,stored,payload,recorded⟩ := h
  exact ⟨e,archivedUnder_append stored,payload,recorded⟩

theorem Acknowledged.follows (h : Acknowledged digest archive old activity)
    (follows : Follows archives archive old new) : Acknowledged digest archive new activity := by
  obtain ⟨e,stored,payload,history,known,bound⟩ := h
  obtain ⟨later,present,grown⟩ := follows.history history known
  exact ⟨e,stored,payload,later,present,bound.trans grown⟩

theorem applyActivity_follows {reference : Option Nat}
    (h : archives = true ∧ reference.isSome = true ∧ AllArchived archive state ∨
      archives = false ∧ reference = none) :
    Follows archives archive state (applyActivity activity reference state) where
  kept := by
    intro a member
    rcases h with ⟨-,-,archived⟩ | ⟨never,rfl⟩
    · exact .inr (.inl (archived a member))
    · rcases @replaced_keeps activity a state member with kept | replaced
      · exact .inl ⟨a,kept,rfl⟩
      · exact .inr (.inr ⟨never,replaced⟩)
  created := fun b member known =>
    replaced_created ((applyActivity_sublist activity reference state).subset member) known
  distinct := fun key =>
    ((applyActivity_sublist activity reference state).countP_le).trans
      (replaced_count activity state key)
  history := by
    intro history known
    rcases h with ⟨-,some,-⟩ | ⟨-,rfl⟩
    · obtain ⟨sequence,rfl⟩ := Option.isSome_iff_exists.mp some
      obtain ⟨later,present,_,grown⟩ := applyActivity_history activity sequence state
      exact ⟨later,present,grown history known⟩
    · exact ⟨history,known,le_rfl⟩

variable {reference : Option Nat} {remaining : List FactorySubagentActivity} {upsert : Upsert}

theorem applyActivity_archived (archived : AllArchived archive state)
    (own : Archived archive activity) :
    AllArchived archive (applyActivity activity reference state) := by
  intro a member
  rcases mem_replaced ((applyActivity_sublist activity reference state).subset member) with
    stored | ⟨same,-⟩
  · exact archived a stored
  · obtain ⟨e,stored,payload⟩ := own
    exact ⟨e,stored,payload.trans same.symm⟩

def Phase (archive : List ArchivedEvent) (start state : FactoryState) :
    Prop :=
  state.subagentHistory = none ∧ state.subagents = start.subagents ∨
    AllArchived archive state

def Covers (archive : List ArchivedEvent) (start state : FactoryState)
    (remaining : List FactorySubagentActivity) : Prop :=
  (∀ a ∈ start.subagents, Archived archive a ∨ a ∈ remaining) ∨
    AllArchived archive state

theorem Covers.archived (h : Covers archive start state [])
    (phase : Phase archive start state) : AllArchived archive state := by
  rcases h with covered | archived
  · rcases phase with ⟨-,legacy⟩ | archived
    · intro a member
      rw [legacy] at member
      exact (covered a member).resolve_right not_mem_nil
    · exact archived
  · exact archived

theorem Covers.append (h : Covers archive start state remaining) :
    Covers (archive ++ more) start state remaining := by
  rcases h with covered | archived
  · exact .inl fun a member => (covered a member).imp Archived.append id
  · exact .inr archived.append

theorem Covers.next {next : FactorySubagentActivity}
    (h : Covers archive start state (next :: remaining)) (archived : Archived archive next) :
    Covers archive start state remaining := by
  refine h.imp (fun covered a member => ?_) id
  rcases covered a member with done | waiting
  · exact .inl done
  · rcases mem_cons.mp waiting with rfl | later
    · exact .inl archived
    · exact .inr later

def Upsert.Sound (digest : Value → String) (archives : Bool) (archive : List ArchivedEvent)
    (start state : FactoryState) (upsert : Upsert) : Prop :=
  match upsert.stage with
  | .started => True
  | .archiving remaining _ =>
    remaining.getLast? = some upsert.activity ∧
      (archives = true → Covers archive start state remaining)
  | .updating reference =>
    archives = false ∧ reference = none ∨
      archives = true ∧ Covers archive start state [] ∧
        ∃ e sequence, archivedUnder (activityKey digest upsert.activity) archive = some e ∧
          e.payload = activityPayload upsert.activity ∧ reference = some sequence ∧
          e.sequence ≤ sequence

theorem Upsert.Sound.append (h : upsert.Sound digest archives archive start state) :
    upsert.Sound digest archives (archive ++ more) start state := by
  unfold Upsert.Sound at h ⊢
  split at h
  · trivial
  · exact ⟨h.1,fun always => (h.2 always).append⟩
  · rcases h with never | ⟨always,covers,e,sequence,stored,payload,reference,bound⟩
    · exact .inl never
    · exact .inr ⟨always,covers.append,e,sequence,archivedUnder_append stored,payload,
        reference,bound⟩

theorem Upsert.Sound.appended {next : FactorySubagentActivity} {latest : Option Nat}
    (h : upsert.Sound digest archives archive start state)
    (stage : upsert.stage = .archiving (next :: remaining) latest)
    (outcome : archives = false ∧ reference = none ∨ archives = true ∧
      ∃ e, archivedUnder (activityKey digest next) archive = some e ∧
        e.payload = activityPayload next ∧ reference = some e.sequence) :
    Upsert.Sound digest archives archive start state
      { upsert with stage := SubagentSystem.afterAppend remaining latest reference } := by
  simp only [Upsert.Sound,stage] at h
  obtain ⟨last,covers⟩ := h
  rcases outcome with ⟨never,rfl⟩ | ⟨always,e,stored,payload,rfl⟩
  · exact .inl ⟨never,rfl⟩
  · have rest := (covers always).next (archived_of_under stored payload)
    cases remaining with
    | nil =>
      cases Option.some.inj last
      exact .inr ⟨always,rest,e,_,stored,payload,rfl,Nat.le_max_right _ _⟩
    | cons later remaining =>
      refine ⟨?_,fun _ => rest⟩
      rwa [getLast?_cons_cons] at last

theorem Upsert.Sound.updated (h : upsert.Sound digest archives archive start old)
    (archived : archives = true → AllArchived archive new) :
    upsert.Sound digest archives archive start new := by
  unfold Upsert.Sound at h ⊢
  split at h
  · trivial
  · exact ⟨h.1,fun always => .inr (archived always)⟩
  · rcases h with never | ⟨always,-,own⟩
    · exact .inl never
    · exact .inr ⟨always,.inr (archived always),own⟩

structure Retained (digest : Value → String) (archives : Bool) (start : FactoryState)
    (thread : FactoryThreadState) (archive : List ArchivedEvent) (upserts : List Upsert)
    (completed : List FactorySubagentActivity) : Prop where
  follows : Follows archives archive thread.current thread.load
  current : archives = true → Phase archive start thread.current
  durable : archives = true → Phase archive start thread.load
  upserts : ∀ u ∈ upserts, u.Sound digest archives archive start thread.current
  completed : archives = true → ∀ a ∈ completed, Acknowledged digest archive thread.current a

namespace Retained

variable {thread : FactoryThreadState} {upserts : List Upsert}
  {completed : List FactorySubagentActivity}

section Keeping

variable (h : Retained digest archives start thread archive upserts completed)

include h

theorem append :
    Retained digest archives start thread (archive ++ more) upserts completed where
  follows := h.follows.append
  current := fun always => (h.current always).imp id AllArchived.append
  durable := fun always => (h.durable always).imp id AllArchived.append
  upserts := fun u member => (h.upserts u member).append
  completed := fun always a member => (h.completed always a member).append

theorem close (id : Nat) :
    Retained digest archives start thread archive (upserts.filter (fun u => u.id ≠ id))
      completed :=
  { h with upserts := fun u member => h.upserts u (mem_of_mem_filter member) }

theorem add {upsert : Upsert} (sound : upsert.Sound digest archives archive start thread.current) :
    Retained digest archives start thread archive (upserts ++ [upsert]) completed :=
  { h with
    upserts := by
      intro u member
      rcases mem_append.mp member with old | new
      · exact h.upserts u old
      · cases mem_singleton.mp new
        exact sound }

theorem loaded :
    Retained digest archives start thread.loadIfNeeded archive upserts completed :=
  ⟨h.follows,h.current,h.durable,h.upserts,h.completed⟩

theorem restarted :
    Retained digest archives start { thread with cached := none } archive [] completed where
  follows := Follows.refl _
  current := h.durable
  durable := h.durable
  upserts := fun _ member => absurd member not_mem_nil
  completed := fun always a member => (h.completed always a member).follows h.follows

end Keeping

end Retained

theorem Upsert.Sound.ready (h : upsert.Sound digest archives archive start state)
    (stage : upsert.stage = .updating reference)
    (phase : archives = true → Phase archive start state) :
    (archives = true ∧ reference.isSome = true ∧ AllArchived archive state ∨
      archives = false ∧ reference = none) ∧
      (archives = true → AllArchived archive
        (applyActivity upsert.activity reference state)) := by
  simp only [Upsert.Sound,stage] at h
  rcases h with ⟨never,rfl⟩ | ⟨always,covers,e,sequence,stored,payload,rfl,_⟩
  · exact ⟨.inr ⟨never,rfl⟩,fun always => absurd (never.symm.trans always) Bool.false_ne_true⟩
  · have archived := covers.archived (phase always)
    exact ⟨.inl ⟨always,rfl,archived⟩,
      fun _ => applyActivity_archived archived (archived_of_under stored payload)⟩

theorem Upsert.Sound.acknowledged (h : upsert.Sound digest archives archive start state)
    (stage : upsert.stage = .updating reference) (always : archives = true) :
    Acknowledged digest archive (applyActivity upsert.activity reference state)
      upsert.activity := by
  simp only [Upsert.Sound,stage] at h
  rcases h with ⟨never,-⟩ | ⟨-,-,e,sequence,stored,payload,rfl,bound⟩
  · exact absurd (never.symm.trans always) Bool.false_ne_true
  · obtain ⟨history,present,reached,-⟩ := applyActivity_history upsert.activity sequence state
    exact ⟨e,stored,payload,history,present,bound.trans reached⟩

end Retention

namespace SubagentSystem

variable {digest : Value → String} {archives : Bool} {start : FactoryState}
  {sys : SubagentSystem} {upsert : Upsert}

def Sound (digest : Value → String) (archives : Bool) (start : FactoryState)
    (sys : SubagentSystem) : Prop :=
  Retained digest archives start sys.thread sys.archive sys.upserts sys.completed

structure Advances (digest : Value → String) (archives : Bool) (start : FactoryState)
    (sys next : SubagentSystem) : Prop where
  sound : next.Sound digest archives start
  follows : Follows archives next.archive sys.thread.current next.thread.current

theorem find_some {id : Nat} (h : sys.find id = some upsert) :
    upsert ∈ sys.upserts ∧ upsert.id = id := by
  have found := find?_some h
  exact ⟨mem_of_find?_eq_some h,of_decide_eq_true found⟩

variable {archive : List ArchivedEvent} {reference : Option Nat}

theorem appendEvent_some {sequence : Nat} {activity : FactorySubagentActivity}
    {extended : List ArchivedEvent}
    (h : appendEvent digest archives sequence activity archive = some (reference, extended)) :
    (∃ more, extended = archive ++ more) ∧
      (archives = false ∧ reference = none ∨ archives = true ∧
        ∃ e, archivedUnder (activityKey digest activity) extended = some e ∧
          e.payload = activityPayload activity ∧ reference = some e.sequence) := by
  unfold appendEvent at h
  split at h
  · next always =>
    split at h
    · next existing stored =>
      split at h
      · next same =>
        cases h
        exact ⟨⟨[],(append_nil _).symm⟩,.inr ⟨always,existing,stored,same,rfl⟩⟩
      · cases h
    · next absent =>
      cases h
      refine ⟨⟨_,rfl⟩,.inr ⟨always,⟨sequence,activityPayload activity,
        activityKey digest activity⟩,?_,rfl,rfl⟩⟩
      rw [archivedUnder] at absent
      rw [archivedUnder,find?_append,absent]
      simp
  · next never =>
    cases h
    exact ⟨⟨[],(append_nil _).symm⟩,.inl ⟨Bool.eq_false_iff.mpr never,rfl⟩⟩

section Stepping

variable (h : sys.Sound digest archives start)

include h

theorem Sound.advance (sound : upsert.Sound digest archives sys.archive start sys.thread.current) :
    (sys.advance upsert).Sound digest archives start :=
  Retained.add (Retained.close h upsert.id) sound

theorem Sound.close (id : Nat) :
    Advances digest archives start sys (sys.close id) :=
  ⟨Retained.close h id,Follows.refl _⟩

theorem Sound.snapshot (upsert : Upsert) (fault : Fault) :
    Advances digest archives start sys (sys.snapshot upsert fault) := by
  cases fault with
  | refused | unapplied | unacknowledged => exact h.close upsert.id
  | clean =>
    refine ⟨?_,Follows.refl _⟩
    have loaded : Sound digest archives start { sys with thread := sys.thread.loadIfNeeded } :=
      Retained.loaded h
    refine loaded.advance ⟨getLast?_concat,fun always => ?_⟩
    rcases h.current always with ⟨legacy,kept⟩ | archived
    · refine .inl fun a member => .inr (mem_append_left _ ?_)
      rw [legacyActivities,legacy]
      exact kept ▸ member
    · exact .inr archived

theorem Sound.archiveActivity {next : FactorySubagentActivity}
    {remaining : List FactorySubagentActivity} {latest : Option Nat} (member : upsert ∈ sys.upserts)
    (stage : upsert.stage = .archiving (next :: remaining) latest) (sequence : Nat)
    (fault : Fault) :
    Advances digest archives start sys
      (sys.archiveActivity digest archives upsert next remaining latest sequence fault) := by
  unfold SubagentSystem.archiveActivity
  split
  · next reference extended appended =>
    obtain ⟨⟨more,rfl⟩,outcome⟩ := appendEvent_some appended
    refine ⟨?_,Follows.refl _⟩
    have grown : Sound digest archives start { sys with archive := sys.archive ++ more } :=
      Retained.append h
    exact grown.advance ((grown.upserts upsert member).appended stage outcome)
  · next appended =>
    obtain ⟨⟨more,rfl⟩,-⟩ := appendEvent_some appended
    have grown : Sound digest archives start { sys with archive := sys.archive ++ more } :=
      Retained.append h
    exact ⟨(grown.close upsert.id).sound,Follows.refl _⟩
  · exact h.close upsert.id

theorem Sound.update (member : upsert ∈ sys.upserts) (stage : upsert.stage = .updating reference)
    (fault : Fault) :
    Advances digest archives start sys (sys.update upsert reference fault) := by
  have own := h.upserts upsert member
  obtain ⟨ready,archived⟩ := own.ready stage h.current
  have applied : Follows archives sys.archive sys.thread.current
      (sys.thread.upsertActivity upsert.activity reference).current := by
    have follows := @applyActivity_follows _ _ _ upsert.activity _ ready
    exact ⟨follows.kept,follows.created,follows.distinct,follows.history⟩
  cases fault with
  | refused => exact h.close upsert.id
  | unapplied => exact ⟨Retained.close (Retained.loaded h) upsert.id,Follows.refl _⟩
  | unacknowledged =>
    refine ⟨Retained.close ?_ upsert.id,Follows.refl _⟩
    exact ⟨applied,h.current,fun always => .inr (archived always),h.upserts,h.completed⟩
  | clean =>
    refine ⟨Retained.close ?_ upsert.id,applied⟩
    refine ⟨Follows.refl _,fun always => .inr (archived always),
      fun always => .inr (archived always),?_,?_⟩
    · intro u other
      exact (h.upserts u other).updated archived
    · intro always a done
      rcases mem_append.mp done with old | new
      · exact (h.completed always a old).follows applied
      · cases mem_singleton.mp new
        exact own.acknowledged stage always

theorem Sound.proceed (member : upsert ∈ sys.upserts) (sequence : Nat) (fault : Fault) :
    Advances digest archives start sys
      (sys.proceed digest archives upsert sequence fault) := by
  cases stage : upsert.stage with
  | started =>
    simp only [SubagentSystem.proceed,stage]
    exact h.snapshot upsert fault
  | archiving remaining latest =>
    cases remaining with
    | nil =>
      have sound := h.upserts upsert member
      simp only [Upsert.Sound,stage] at sound
      cases sound.1
    | cons next remaining =>
      simp only [SubagentSystem.proceed,stage]
      exact h.archiveActivity member stage sequence fault
  | updating reference =>
    simp only [SubagentSystem.proceed,stage]
    exact h.update member stage fault

theorem Sound.step (input : SubagentStep) :
    Advances digest archives start sys (sys.step digest archives input) := by
  cases input with
  | begin id activity =>
    simp only [SubagentSystem.step]
    split
    · exact ⟨Retained.add h trivial,Follows.refl _⟩
    · exact ⟨h,Follows.refl _⟩
  | proceed id sequence fault =>
    simp only [SubagentSystem.step]
    split
    · exact ⟨h,Follows.refl _⟩
    · next found => exact h.proceed (find_some found).1 sequence fault
  | restart => exact ⟨Retained.restarted h,h.follows⟩

end Stepping

def AcknowledgesSave (sys : SubagentSystem) : SubagentStep → Prop
  | .proceed id _ .unacknowledged => ∀ upsert ∈ sys.find id, upsert.stage.saves = false
  | _ => True

def Stored (sys : SubagentSystem) : Prop := sys.thread.load = sys.thread.current

theorem Stored.update {fault : Fault} (h : sys.Stored) (acknowledged : fault ≠ .unacknowledged) :
    (sys.update upsert reference fault).Stored := by
  cases fault with
  | clean => rfl
  | refused | unapplied => exact h
  | unacknowledged => exact absurd rfl acknowledged

theorem Stored.proceed {fault : Fault} (h : sys.Stored) (sequence : Nat)
    (acknowledged : fault = .unacknowledged → upsert.stage.saves = false) :
    (sys.proceed digest archives upsert sequence fault).Stored := by
  cases stage : upsert.stage with
  | started =>
    simp only [SubagentSystem.proceed,stage]
    cases fault <;> exact h
  | archiving remaining latest =>
    cases remaining with
    | nil =>
      simp only [SubagentSystem.proceed,stage]
      exact h
    | cons next remaining =>
      simp only [SubagentSystem.proceed,stage,SubagentSystem.archiveActivity]
      split <;> exact h
  | updating reference =>
    simp only [SubagentSystem.proceed,stage]
    refine h.update fun lost => ?_
    rw [stage] at acknowledged
    cases acknowledged lost

theorem Stored.step (h : sys.Stored) {input : SubagentStep}
    (acknowledged : sys.AcknowledgesSave input) : (sys.step digest archives input).Stored := by
  cases input with
  | begin id activity =>
    simp only [SubagentSystem.step]
    split <;> exact h
  | proceed id sequence fault =>
    simp only [SubagentSystem.step]
    split
    · exact h
    · next upsert found =>
      refine h.proceed sequence fun lost => ?_
      subst lost
      exact acknowledged upsert found
  | restart => rfl

theorem entries_follow {base state next : FactoryState} {key : String × String × String}
    (h : state.entries key ≤ max 1 (base.entries key))
    (follows : Follows archives archive state next) :
    next.entries key ≤ max 1 (base.entries key) := by
  have grown := follows.distinct key
  omega

theorem start_sound {durable : Option FactoryState}
    (begins : (durable.getD .default).subagentHistory = none ∨
      AllArchived archive (durable.getD .default)) :
    (SubagentSystem.start durable archive).Sound digest archives (durable.getD .default) where
  follows := Follows.refl _
  current := fun _ => begins.imp (fun legacy => ⟨legacy,rfl⟩) id
  durable := fun _ => begins.imp (fun legacy => ⟨legacy,rfl⟩) id
  upserts := fun _ member => absurd member not_mem_nil
  completed := fun _ _ member => absurd member not_mem_nil

def run (digest : Value → String) (archives : Bool) (durable : Option FactoryState)
    (archive : List ArchivedEvent) (steps : List SubagentStep) : SubagentSystem :=
  Machine.run (step digest archives) (SubagentSystem.start durable archive) steps

theorem subagent_activity_retained (digest : Value → String) (archives : Bool)
    (durable : Option FactoryState) (archive : List ArchivedEvent) (steps : List SubagentStep)
    (begins : (durable.getD .default).subagentHistory = none ∨
      ∀ a ∈ (durable.getD .default).subagents, ∃ e ∈ archive, e.payload = activityPayload a) :
    Machine.Along (step digest archives)
        (fun sys input => Follows archives (sys.step digest archives input).archive
          sys.thread.current (sys.step digest archives input).thread.current)
        (SubagentSystem.start durable archive) steps ∧
      (∀ key, (run digest archives durable archive steps).thread.current.entries key ≤
        max 1 ((durable.getD .default).entries key)) ∧
      (archives = true → ∀ a ∈ (run digest archives durable archive steps).completed,
        Acknowledged digest (run digest archives durable archive steps).archive
          (run digest archives durable archive steps).thread.current a) ∧
      (Machine.Along (step digest archives) AcknowledgesSave
          (SubagentSystem.start durable archive) steps →
        (run digest archives durable archive steps).thread.load =
          (run digest archives durable archive steps).thread.current) := by
  have begun : (SubagentSystem.start durable archive).Sound digest archives
      (durable.getD .default) := start_sound begins
  have kept : ∀ (sys : SubagentSystem) (input : SubagentStep),
      sys.Sound digest archives (durable.getD .default) →
      (sys.step digest archives input).Sound digest archives (durable.getD .default) :=
    fun _ input h => (h.step input).sound
  refine ⟨?_,fun key => ?_,?_,?_⟩
  · exact @Machine.along_of_invariant _ _ (step digest archives) _ (fun _ _ => True)
      (Sound digest archives (durable.getD .default)) _ (fun sys input _ => kept sys input)
      (fun _ input _ h => (h.step input).follows) begun steps (Machine.along_true steps)
  · have counted := @Machine.run_invariant _ _ (step digest archives)
      (SubagentSystem.start durable archive)
      (fun sys => sys.Sound digest archives (durable.getD .default) ∧
        sys.thread.current.entries key ≤ max 1 ((durable.getD .default).entries key))
      (fun sys input h => ⟨kept sys input h.1,entries_follow h.2 (h.1.step input).follows⟩)
      ⟨begun,Nat.le_max_right _ _⟩ steps
    exact counted.2
  · exact (@Machine.run_invariant _ _ (step digest archives) _
      (Sound digest archives (durable.getD .default)) kept begun steps).completed
  · have stored : (SubagentSystem.start durable archive).Stored := rfl
    exact @Machine.along_invariant _ _ (step digest archives) _ _ Stored
      (fun _ _ acknowledged h => h.step acknowledged) stored steps

def spawned (callId updatedAt : String) : FactorySubagentActivity :=
  ⟨callId, "turn", "parent", ["child"], .spawnAgent, none, .completed, [], updatedAt, updatedAt⟩

def legacyState : FactoryState := { FactoryState.default with subagents := [spawned "old" "1"] }

def migration : List SubagentStep :=
  [.begin 1 (spawned "first" "2"), .begin 2 (spawned "old" "3"), .proceed 1 0 .clean,
    .proceed 2 0 .clean, .proceed 1 7 .clean, .proceed 2 8 .unacknowledged, .proceed 1 9 .clean,
    .proceed 1 0 .clean]

theorem subagent_activity_retained_migration :
    (legacyState.subagentHistory = none ∧
        (run (fun v => (v.text "call_id").getD "") true (some legacyState) []
          migration).completed = [spawned "first" "2"]) ∧
      Machine.Along (step (fun v => (v.text "call_id").getD "") true)
        (fun sys input => Follows true
          (sys.step (fun v => (v.text "call_id").getD "") true input).archive sys.thread.current
          (sys.step (fun v => (v.text "call_id").getD "") true input).thread.current)
        (SubagentSystem.start (some legacyState) []) migration ∧
      (run (fun v => (v.text "call_id").getD "") true (some legacyState) [] migration).thread.load =
        (run (fun v => (v.text "call_id").getD "") true (some legacyState) []
          migration).thread.current := by
  obtain ⟨follows,-,-,stored⟩ :=
    subagent_activity_retained _ true (some legacyState) [] migration (.inl rfl)
  refine ⟨⟨rfl,by decide⟩,follows,stored ?_⟩
  exact ⟨trivial,trivial,trivial,trivial,trivial,by rw [AcknowledgesSave]; decide,trivial,trivial,
    trivial⟩

end SubagentSystem

end Extension
