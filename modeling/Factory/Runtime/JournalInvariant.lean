import Factory.Runtime.StageJournal

namespace Runtime

open Coordinator Table List

def StageTurnRole.output : StageTurnRole → StageOutputTurnRole
  | .stage => .stage
  | .remediation => .remediation
  | .review => .review

def EntryBody.accepts : EntryBody → Option MarkerSlot
  | .turnAccepted _ role cycle _ => some (cycle, role.output)
  | _ => none

def EntryBody.completes : EntryBody → Bool
  | .stageCompleted _ _ _ _ _ => true
  | _ => false

namespace Journal

abbrev Accepted := List (OperationId × StageTurnRole)

def entriesOf (entries : List Entry) (id : OperationId) : List Entry :=
  entries.filter (fun e => e.operationId = some id)

def RemediationAccepted (accepted : Accepted) (id : OperationId) : Prop :=
  (id, StageTurnRole.remediation) ∈ accepted

structure Unmarked (entries : List Entry) (accepted : Accepted) (id : OperationId) : Prop where
  entries : ∀ e ∈ entriesOf entries id, e.body.accepts = none
  accepted : ∀ role, (id, role) ∉ accepted

def MarkersUpTo (entries : List Entry) (id : OperationId) (slot : MarkerSlot) : Prop :=
  ∀ e ∈ entriesOf entries id, ∀ m ∈ e.body.accepts, m.upTo slot ∧ m.1 ≤ u32Max

def Registered (turns : List StartedTurn) (turn : TurnRef) (id : OperationId) : Prop :=
  ∃ started ∈ turns, started.turnId = turn.turnId ∧ started.operationId = id

def Settled (operations : List OperationRow) (id : OperationId) : Prop :=
  ∃ o ∈ operations, o.operationId = id ∧ o.status = .succeeded

structure Admits (entries : List Entry) (accepted : Accepted) (o : OperationRow)
    (role : StageTurnRole) (cycle : Nat) : Prop where
  range : cycle ≤ u32Max
  markers : MarkersUpTo entries o.operationId (cycle, role.output)
  role : operationKind o = .remediate →
    role = .remediation ∨ role = .review ∧ RemediationAccepted accepted o.operationId

structure Bypassed (entries : List Entry) (accepted : Accepted) (turns : List StartedTurn)
    (id : OperationId) (role : StageTurnRole) (turn : TurnRef) : Prop where
  role : role = .review
  unmarked : Unmarked entries accepted id
  elsewhere : ∃ other, other ≠ id ∧ Registered turns turn other

structure Finishing (entries : List Entry) (accepted : Accepted) (turns : List StartedTurn)
    (o : OperationRow) (role : StageTurnRole) (cycle : Nat) (turn : TurnRef) : Prop where
  range : cycle ≤ u32Max
  markers : MarkersUpTo entries o.operationId (cycle, role.output)
  remediated : operationKind o = .remediate →
    RemediationAccepted accepted o.operationId ∨
      Bypassed entries accepted turns o.operationId role turn

structure Completion where
  entry : Entry
  role : StageTurnRole
  cycle : Nat
  turn : TurnRef
  findings : List Json.Value

structure Completed (entries : List Entry) (accepted : Accepted) (turns : List StartedTurn)
    (o : OperationRow) (c : Completion) : Prop where
  mem : c.entry ∈ entriesOf entries o.operationId
  body : c.entry.body = .stageCompleted (operationKind o) c.role c.cycle c.turn c.findings
  last : ∀ e ∈ entriesOf entries o.operationId, e.sequence ≤ c.entry.sequence
  unique : ∀ e ∈ entriesOf entries o.operationId, e.body.completes = true → e = c.entry
  finishing : Finishing entries accepted turns o c.role c.cycle c.turn

structure Logged (entries : List Entry) (nextSequence : Nat) (turns : List StartedTurn) :
    Prop where
  sequences : entries.Pairwise (fun a b => a.sequence < b.sequence)
  bounded : ∀ e ∈ entries, e.sequence < nextSequence
  turnIds : (turns.map (·.turnId)).Nodup
  observed : ∀ e ∈ entries, ∀ turn event, e.body = .observed turn event →
    event.permitted = true ∧ ∃ t ∈ turns, t.turnId = turn.turnId ∧
      e.operationId = some t.operationId ∧ e.attemptId = some t.attemptId
  noted : ∀ e ∈ entries, ∀ kind payload, e.body = .noted kind payload →
    e.operationId = none ∨ kind ∉ journalKinds

structure Owned (operations : List OperationRow) (entries : List Entry) (accepted : Accepted) :
    Prop where
  ordinals : operations.map (·.ordinal) = range operations.length
  kinds : ∀ o ∈ operations, o.kind = (operationKind o).asWireName
  ids : (operations.map (·.operationId)).Nodup
  entries : ∀ e ∈ entries, ∀ id, e.operationId = some id → id ∈ operations.map (·.operationId)
  accepted : ∀ x ∈ accepted, x.1 ∈ operations.map (·.operationId)

structure Progress (operations : List OperationRow) (entries : List Entry) (accepted : Accepted)
    (turns : List StartedTurn) (latest : Option TurnCheckpoint) : Prop where
  remediate : ∀ o ∈ operations, operationKind o ≠ .remediate →
    ∀ e ∈ entriesOf entries o.operationId, e.body.accepts = none
  incomplete : ∀ o ∈ operations, o.status ≠ .succeeded →
    ∀ e ∈ entriesOf entries o.operationId, e.body.completes = false
  settled : ∀ o ∈ operations, o.status = .succeeded → ∃ c, Completed entries accepted turns o c
  unmarked : ∀ o ∈ operations, o.status ≠ .succeeded →
    (openOperation operations = some o → latest = none) → Unmarked entries accepted o.operationId
  latest : ∀ checkpoint, latest = some checkpoint → ∃ o, openOperation operations = some o ∧
    Admits entries accepted o checkpoint.role checkpoint.cycle ∧
    Registered turns checkpoint.turn o.operationId

def Recorded (latest : Option TurnCheckpoint) (checkpoint : TurnCheckpoint) : Prop :=
  ∃ l, latest = some l ∧ l.role = checkpoint.role ∧ l.cycle = checkpoint.cycle

structure Evaluated (entries : List Entry) (accepted : Accepted) (turns : List StartedTurn)
    (latest : Option TurnCheckpoint) (o : OperationRow) (checkpoint : TurnCheckpoint) : Prop where
  recorded : Recorded latest checkpoint
  admits : Admits entries accepted o checkpoint.role checkpoint.cycle
  registered : Registered turns checkpoint.turn o.operationId

def Backs (s : StageJournal) (w : JournalWorker) : JournalPoint → Prop
  | .enter => True
  | .evaluate checkpoint _ =>
    Evaluated s.entries s.accepted s.turns s.latest w.operation checkpoint
  | .accepted checkpoint =>
    Evaluated s.entries s.accepted s.turns s.latest w.operation checkpoint ∧
    (w.operation.operationId, checkpoint.role) ∈ s.accepted
  | .run role cycle | .start role cycle => Admits s.entries s.accepted w.operation role cycle
  | .await checkpoint | .wait checkpoint =>
    Admits s.entries s.accepted w.operation checkpoint.role checkpoint.cycle ∧
    ⟨checkpoint.turn.turnId, w.operation.operationId, w.attemptId⟩ ∈ s.turns
  | .complete checkpoint =>
    Finishing s.entries s.accepted s.turns w.operation checkpoint.role checkpoint.cycle
      checkpoint.turn ∧
    ∃ owner, Registered s.turns checkpoint.turn owner ∧
      (owner = w.operation.operationId ∨ Settled s.operations owner)

structure Traced (s : StageJournal) : Prop where
  logged : Logged s.entries s.nextSequence s.turns
  owned : Owned s.operations s.entries s.accepted
  progress : Progress s.operations s.entries s.accepted s.turns s.latest
  previous : ∀ turn, s.previous = some turn →
    ∃ owner, Registered s.turns turn owner ∧ Settled s.operations owner
  worker : ∀ w, s.worker = some w →
    openOperation s.operations = some w.operation ∧ Backs s w w.point

section

variable {entries : List Entry} {accepted : Accepted} {turns : List StartedTurn}
  {operations : List OperationRow} {id : OperationId} {o : OperationRow} {e : Entry}
  {role : StageTurnRole} {cycle nextSequence : Nat} {turn : TurnRef} {started : StartedTurn}
  {latest : Option TurnCheckpoint}

theorem mem_entriesOf : e ∈ entriesOf entries id ↔ e ∈ entries ∧ e.operationId = some id := by
  rw [entriesOf,mem_filter,decide_eq_true_eq]

theorem open_mem (h : openOperation operations = some o) :
    o ∈ operations ∧ o.status ≠ .succeeded :=
  ⟨mem_of_find?_eq_some h,by simpa using find?_some h⟩

theorem open_unsettled (ids : (operations.map (·.operationId)).Nodup)
    (h : openOperation operations = some o) : ¬ Settled operations o.operationId := by
  rintro ⟨p,mem,same,settled⟩
  obtain ⟨member,unsettled⟩ := open_mem h
  obtain rfl := inj_on_of_nodup_map ids mem member same
  exact unsettled settled

variable {slot : MarkerSlot} {role' : StageTurnRole} {checkpoint : TurnCheckpoint}

theorem MarkersUpTo.mono {slot' : MarkerSlot} (h : MarkersUpTo entries id slot)
    (le : slot.upTo slot') : MarkersUpTo entries id slot' := by
  intro e mem m hit
  obtain ⟨within,range⟩ := h e mem m hit
  refine ⟨?_,range⟩
  unfold MarkerSlot.upTo at *
  omega

theorem entriesOf_append : entriesOf (entries ++ [e]) id =
    entriesOf entries id ++ if e.operationId = some id then [e] else [] := by
  rw [entriesOf,entriesOf,filter_append]
  congr 1
  by_cases own : e.operationId = some id <;> simp [own]

theorem entriesOf_other (other : e.operationId ≠ some id) :
    entriesOf (entries ++ [e]) id = entriesOf entries id := by
  rw [entriesOf_append,if_neg other,append_nil]

theorem mem_entriesOf_append {x : Entry} (h : x ∈ entriesOf (entries ++ [e]) id) :
    x ∈ entriesOf entries id ∨ x = e ∧ e.operationId = some id := by
  rw [entriesOf_append,mem_append] at h
  rcases h with old | new
  · exact .inl old
  · split at new
    · next own => exact .inr ⟨mem_singleton.mp new,own⟩
    · exact absurd new not_mem_nil

theorem MarkersUpTo.append (h : MarkersUpTo entries id slot)
    (new : e.operationId = some id → ∀ m ∈ e.body.accepts, m.upTo slot ∧ m.1 ≤ u32Max) :
    MarkersUpTo (entries ++ [e]) id slot := by
  intro x mem m hit
  rcases mem_entriesOf_append mem with old | ⟨rfl,own⟩
  · exact h x old m hit
  · exact new own m hit

theorem Unmarked.markersUpTo (h : Unmarked entries accepted id) (slot : MarkerSlot) :
    MarkersUpTo entries id slot := by
  intro e mem m hit
  rw [h.entries e mem] at hit
  contradiction

theorem Unmarked.append (h : Unmarked entries accepted id)
    (quiet : e.operationId = some id → e.body.accepts = none) :
    Unmarked (entries ++ [e]) accepted id := by
  refine ⟨?_,h.accepted⟩
  intro x mem
  rcases mem_entriesOf_append mem with old | ⟨rfl,own⟩
  · exact h.entries x old
  · exact quiet own

theorem Unmarked.accept (h : Unmarked entries accepted id) (other : o.operationId ≠ id) :
    Unmarked entries ((o.operationId, role) :: accepted) id := by
  refine ⟨h.entries,?_⟩
  intro role' mem
  rcases mem_cons.mp mem with new | old
  · exact other (Prod.mk.inj new).1.symm
  · exact h.accepted role' old

theorem quiet_marks {P : Prop} (quiet : P → e.body.accepts = none) (holds : P) :
    ∀ m ∈ e.body.accepts, m.upTo slot ∧ m.1 ≤ u32Max := by
  intro m hit
  rw [quiet holds] at hit
  contradiction

theorem Admits.append (h : Admits entries accepted o role cycle)
    (quiet : e.operationId = some o.operationId → e.body.accepts = none) :
    Admits (entries ++ [e]) accepted o role cycle :=
  ⟨h.range,h.markers.append (quiet_marks quiet),h.role⟩

theorem Admits.accept {x : OperationId × StageTurnRole} (h : Admits entries accepted o role cycle) :
    Admits entries (x :: accepted) o role cycle := by
  refine ⟨h.range,h.markers,fun kind => ?_⟩
  rcases h.role kind with remediation | ⟨review,remediated⟩
  · exact .inl remediation
  · exact .inr ⟨review,mem_cons_of_mem _ remediated⟩

theorem Registered.mono (h : Registered turns turn id) : Registered (started :: turns) turn id := by
  obtain ⟨found,mem,named⟩ := h
  exact ⟨found,mem_cons_of_mem _ mem,named⟩

theorem Finishing.append (h : Finishing entries accepted turns o role cycle turn)
    (quiet : e.operationId = some o.operationId → e.body.accepts = none) :
    Finishing (entries ++ [e]) accepted turns o role cycle turn := by
  refine ⟨h.range,h.markers.append (quiet_marks quiet),fun kind => ?_⟩
  rcases h.remediated kind with remediated | ⟨review,unmarked,elsewhere⟩
  · exact .inl remediated
  · exact .inr ⟨review,unmarked.append quiet,elsewhere⟩

theorem Finishing.accept {p : OperationRow} (h : Finishing entries accepted turns o role cycle turn)
    (other : p.operationId ≠ o.operationId) :
    Finishing entries ((p.operationId, role') :: accepted) turns o role cycle turn := by
  refine ⟨h.range,h.markers,fun kind => ?_⟩
  rcases h.remediated kind with remediated | ⟨review,unmarked,elsewhere⟩
  · exact .inl (mem_cons_of_mem _ remediated)
  · exact .inr ⟨review,unmarked.accept other,elsewhere⟩

theorem Finishing.register (h : Finishing entries accepted turns o role cycle turn) :
    Finishing entries accepted (started :: turns) o role cycle turn := by
  refine ⟨h.range,h.markers,fun kind => ?_⟩
  rcases h.remediated kind with remediated | ⟨review,unmarked,owner,other,registered⟩
  · exact .inl remediated
  · exact .inr ⟨review,unmarked,owner,other,registered.mono⟩

variable {c : Completion}

theorem Completed.append (h : Completed entries accepted turns o c)
    (other : e.operationId ≠ some o.operationId) :
    Completed (entries ++ [e]) accepted turns o c := by
  have same : entriesOf (entries ++ [e]) o.operationId = entriesOf entries o.operationId :=
    entriesOf_other other
  refine ⟨?_,h.body,?_,?_,h.finishing.append (fun own => absurd own other)⟩
  · exact same ▸ h.mem
  · exact same ▸ h.last
  · exact same ▸ h.unique

theorem Completed.accept {p : OperationRow} (h : Completed entries accepted turns o c)
    (other : p.operationId ≠ o.operationId) :
    Completed entries ((p.operationId, role') :: accepted) turns o c :=
  ⟨h.mem,h.body,h.last,h.unique,h.finishing.accept other⟩

theorem Completed.register (h : Completed entries accepted turns o c) :
    Completed entries accepted (started :: turns) o c :=
  ⟨h.mem,h.body,h.last,h.unique,h.finishing.register⟩

theorem Evaluated.append (h : Evaluated entries accepted turns latest o checkpoint)
    (quiet : e.operationId = some o.operationId → e.body.accepts = none) :
    Evaluated (entries ++ [e]) accepted turns latest o checkpoint :=
  ⟨h.recorded,h.admits.append quiet,h.registered⟩

theorem Evaluated.finishing (h : Evaluated entries accepted turns latest o checkpoint)
    (mem : (o.operationId, checkpoint.role) ∈ accepted) :
    Finishing entries accepted turns o checkpoint.role checkpoint.cycle checkpoint.turn := by
  refine ⟨h.admits.range,h.admits.markers,fun kind => .inl ?_⟩
  rcases h.admits.role kind with remediation | ⟨-,remediated⟩
  · rw [remediation] at mem
    exact mem
  · exact remediated

end

end Journal

namespace Journal

open Coordinator Table StageJournal List

section

variable {entries : List Entry} {accepted : Accepted} {turns : List StartedTurn}
  {operations : List OperationRow} {o : OperationRow} {e : Entry}
  {nextSequence : Nat} {started : StartedTurn}
  {latest : Option TurnCheckpoint} {checkpoint : TurnCheckpoint}

def Recordable (turns : List StartedTurn) (e : Entry) : Prop :=
  match e.body with
  | .observed turn event => event.permitted = true ∧ ∃ t ∈ turns, t.turnId = turn.turnId ∧
      e.operationId = some t.operationId ∧ e.attemptId = some t.attemptId
  | .noted kind _ => e.operationId = none ∨ kind ∉ journalKinds
  | .turnAccepted _ _ _ _ | .stageCompleted _ _ _ _ _ => True

theorem Logged.append (h : Logged entries nextSequence turns) (numbered : e.sequence = nextSequence)
    (recordable : Recordable turns e) : Logged (entries ++ [e]) (nextSequence + 1) turns := by
  refine ⟨?_,?_,h.turnIds,?_,?_⟩
  · refine pairwise_append.mpr ⟨h.sequences,pairwise_singleton _ _,?_⟩
    intro x mem y new
    rw [mem_singleton.mp new,numbered]
    exact h.bounded x mem
  · intro x mem
    rcases mem_append.mp mem with old | new
    · exact (h.bounded x old).trans (Nat.lt_succ_self _)
    · rw [mem_singleton.mp new,numbered]
      exact Nat.lt_succ_self _
  · intro x mem turn event body
    rcases mem_append.mp mem with old | new
    · exact h.observed x old turn event body
    · rw [← mem_singleton.mp new] at recordable
      rwa [Recordable,body] at recordable
  · intro x mem kind payload body
    rcases mem_append.mp mem with old | new
    · exact h.noted x old kind payload body
    · rw [← mem_singleton.mp new] at recordable
      rwa [Recordable,body] at recordable

theorem Logged.register (h : Logged entries nextSequence turns)
    (fresh : started.turnId ∉ turns.map (·.turnId)) :
    Logged entries nextSequence (started :: turns) := by
  refine ⟨h.sequences,h.bounded,nodup_cons.mpr ⟨fresh,h.turnIds⟩,?_,h.noted⟩
  intro e mem turn event body
  obtain ⟨permitted,found,known,named⟩ := h.observed e mem turn event body
  exact ⟨permitted,found,mem_cons_of_mem _ known,named⟩

theorem Owned.append (h : Owned operations entries accepted)
    (owner : ∀ id, e.operationId = some id → id ∈ operations.map (·.operationId)) :
    Owned operations (entries ++ [e]) accepted := by
  refine ⟨h.ordinals,h.kinds,h.ids,?_,h.accepted⟩
  intro x mem id named
  rcases mem_append.mp mem with old | new
  · exact h.entries x old id named
  · rw [mem_singleton.mp new] at named
    exact owner id named

variable {role : StageTurnRole} {id : OperationId}

theorem Owned.accept (h : Owned operations entries accepted) (mem : o ∈ operations) :
    Owned operations entries ((o.operationId, role) :: accepted) := by
  refine ⟨h.ordinals,h.kinds,h.ids,h.entries,?_⟩
  intro x found
  rcases mem_cons.mp found with rfl | old
  · exact mem_map_of_mem mem
  · exact h.accepted x old

theorem open_ne (ids : (operations.map (·.operationId)).Nodup)
    (h : openOperation operations = some o) {p : OperationRow} (mem : p ∈ operations)
    (succeeded : p.status = .succeeded) : o.operationId ≠ p.operationId := by
  intro same
  exact open_unsettled ids h ⟨p,mem,same.symm,succeeded⟩

structure Continues (operations : List OperationRow) (latest : Option TurnCheckpoint) (e : Entry) :
    Prop where
  owner : ∀ id, e.operationId = some id →
    ∃ o, openOperation operations = some o ∧ o.operationId = id
  continues : e.body.completes = false
  marks : ∀ m ∈ e.body.accepts, ∀ o, openOperation operations = some o →
    operationKind o = .remediate ∧ ∃ l, latest = some l ∧
      m.upTo (l.cycle, l.role.output) ∧ m.1 ≤ u32Max

theorem Continues.open_of_mem (h : Continues operations latest e)
    (ids : (operations.map (·.operationId)).Nodup) (mem : o ∈ operations)
    (own : e.operationId = some o.operationId) : openOperation operations = some o := by
  obtain ⟨p,isOpen,same⟩ := h.owner _ own
  obtain rfl := inj_on_of_nodup_map ids (open_mem isOpen).1 mem same
  exact isOpen

theorem Continues.accepts_none (h : Continues operations latest e)
    (isOpen : openOperation operations = some o)
    (free : operationKind o ≠ .remediate ∨ latest = none) : e.body.accepts = none := by
  cases marked : e.body.accepts with
  | none => rfl
  | some m =>
    obtain ⟨kind,l,recorded,-⟩ := h.marks m marked o isOpen
    rcases free with other | none
    · exact absurd kind other
    · rw [none] at recorded
      contradiction

def settleOperation (id : OperationId) (operations : List OperationRow) : List OperationRow :=
  updateWhere (fun operation => operation.operationId = id) ({ · with status := .succeeded })
    operations

theorem mem_settleOperation {p : OperationRow} (mem : p ∈ settleOperation id operations) :
    ∃ o ∈ operations, (o.operationId = id ∧ p = { o with status := .succeeded }) ∨
      (o.operationId ≠ id ∧ p = o) := by
  obtain ⟨o,found,rfl⟩ := mem_updateWhere.mp mem
  refine ⟨o,found,?_⟩
  by_cases same : o.operationId = id
  · exact .inl ⟨same,by simp [same]⟩
  · exact .inr ⟨same,by simp [same]⟩

theorem Settled.settleOperation {other : OperationId} (h : Settled operations id) :
    Settled (settleOperation other operations) id := by
  obtain ⟨o,mem,same,succeeded⟩ := h
  refine ⟨_,mem_updateWhere.mpr ⟨o,mem,rfl⟩,?_,?_⟩
  · split
    · exact same
    · exact same
  · split
    · rfl
    · exact succeeded

theorem settled_settleOperation (mem : o ∈ operations) :
    Settled (settleOperation o.operationId operations) o.operationId := by
  refine ⟨{ o with status := .succeeded },mem_updateWhere.mpr ⟨o,mem,?_⟩,rfl,rfl⟩
  simp

theorem Owned.settle (h : Owned operations entries accepted) :
    Owned (settleOperation id operations) entries accepted := by
  have ids : (settleOperation id operations).map (·.operationId) =
      operations.map (·.operationId) := map_updateWhere fun _ _ _ => rfl
  have ordinals : (settleOperation id operations).map (·.ordinal) =
      operations.map (·.ordinal) := map_updateWhere fun _ _ _ => rfl
  refine ⟨?_,?_,ids ▸ h.ids,ids ▸ h.entries,ids ▸ h.accepted⟩
  · rw [ordinals,h.ordinals,settleOperation,updateWhere,length_map]
  · intro p mem
    obtain ⟨o,known,⟨-,rfl⟩ | ⟨-,rfl⟩⟩ := mem_settleOperation mem
    · exact h.kinds o known
    · exact h.kinds _ known

variable {added : List OperationRow}

theorem entriesOf_fresh (h : Owned operations entries accepted)
    (fresh : id ∉ operations.map (·.operationId)) : entriesOf entries id = [] := by
  refine eq_nil_iff_forall_not_mem.mpr ?_
  intro e mem
  obtain ⟨known,own⟩ := mem_entriesOf.mp mem
  exact fresh (h.entries e known id own)

section Progressing

variable (h : Progress operations entries accepted turns latest)

include h

theorem Progress.append (ids : (operations.map (·.operationId)).Nodup)
    (new : Continues operations latest e) :
    Progress operations (entries ++ [e]) accepted turns latest := by
  refine ⟨?_,?_,?_,?_,?_⟩
  · intro o mem kind x found
    rcases mem_entriesOf_append found with old | ⟨rfl,own⟩
    · exact h.remediate o mem kind x old
    · exact new.accepts_none (new.open_of_mem ids mem own) (.inl kind)
  · intro o mem unsettled x found
    rcases mem_entriesOf_append found with old | ⟨rfl,-⟩
    · exact h.incomplete o mem unsettled x old
    · exact new.continues
  · intro o mem succeeded
    obtain ⟨c,completed⟩ := h.settled o mem succeeded
    refine ⟨c,completed.append ?_⟩
    intro own
    exact (open_mem (new.open_of_mem ids mem own)).2 succeeded
  · intro o mem unsettled idle
    refine (h.unmarked o mem unsettled idle).append ?_
    intro own
    have isOpen := new.open_of_mem ids mem own
    exact new.accepts_none isOpen (.inr (idle isOpen))
  · intro checkpoint recorded
    obtain ⟨o,isOpen,admits,registered⟩ := h.latest checkpoint recorded
    refine ⟨o,isOpen,⟨admits.range,admits.markers.append ?_,admits.role⟩,registered⟩
    intro _ m marked
    obtain ⟨-,l,same,within⟩ := new.marks m marked o isOpen
    obtain rfl := Option.some.inj (recorded.symm.trans same)
    exact within

theorem Progress.accept (ids : (operations.map (·.operationId)).Nodup)
    (isOpen : openOperation operations = some o) (recorded : latest = some checkpoint) :
    Progress operations entries ((o.operationId, role) :: accepted) turns latest := by
  refine ⟨h.remediate,h.incomplete,?_,?_,?_⟩
  · intro p mem succeeded
    obtain ⟨c,completed⟩ := h.settled p mem succeeded
    exact ⟨c,completed.accept (open_ne ids isOpen mem succeeded)⟩
  · intro p mem unsettled idle
    refine (h.unmarked p mem unsettled idle).accept ?_
    intro same
    obtain rfl := inj_on_of_nodup_map ids (open_mem isOpen).1 mem same
    rw [idle isOpen] at recorded
    contradiction
  · intro l found
    obtain ⟨p,isOpen',admits,registered⟩ := h.latest l found
    exact ⟨p,isOpen',admits.accept,registered⟩

theorem Progress.register :
    Progress operations entries accepted (started :: turns) latest := by
  refine ⟨h.remediate,h.incomplete,?_,h.unmarked,?_⟩
  · intro o mem succeeded
    obtain ⟨c,completed⟩ := h.settled o mem succeeded
    exact ⟨c,completed.register⟩
  · intro l found
    obtain ⟨o,isOpen,admits,registered⟩ := h.latest l found
    exact ⟨o,isOpen,admits,registered.mono⟩

theorem Progress.record (isOpen : openOperation operations = some o)
    (admits : Admits entries accepted o checkpoint.role checkpoint.cycle)
    (registered : Registered turns checkpoint.turn o.operationId) :
    Progress operations entries accepted turns (some checkpoint) := by
  refine ⟨h.remediate,h.incomplete,h.settled,?_,?_⟩
  · intro p mem unsettled idle
    refine h.unmarked p mem unsettled ?_
    intro isOpen'
    exact absurd (idle isOpen') (by simp)
  · intro l found
    obtain rfl := Option.some.inj found
    exact ⟨o,isOpen,admits,registered⟩

theorem Progress.settle {cycle : Nat} {turn : TurnRef} {findings : List Json.Value}
    (logged : Logged entries nextSequence turns) (ids : (operations.map (·.operationId)).Nodup)
    (isOpen : openOperation operations = some o) (own : e.operationId = some o.operationId)
    (numbered : e.sequence = nextSequence)
    (body : e.body = .stageCompleted (operationKind o) role cycle turn findings)
    (finishing : Finishing entries accepted turns o role cycle turn) :
    Progress (settleOperation o.operationId operations) (entries ++ [e]) accepted turns none := by
  obtain ⟨member,unsettled⟩ := open_mem isOpen
  have quiet : e.body.accepts = none := by rw [body]; rfl
  have foreign {p : OperationRow} (other : p.operationId ≠ o.operationId) :
      e.operationId ≠ some p.operationId := by
    rw [own]
    exact fun same => other (Option.some.inj same).symm
  refine ⟨?_,?_,?_,?_,?_⟩
  · intro p mem kind x found
    rcases mem_entriesOf_append found with old | ⟨rfl,-⟩
    · obtain ⟨q,known,⟨-,rfl⟩ | ⟨-,rfl⟩⟩ := mem_settleOperation mem
      · exact h.remediate q known kind x old
      · exact h.remediate _ known kind x old
    · exact quiet
  · intro p mem unsettled' x found
    obtain ⟨q,known,⟨-,rfl⟩ | ⟨other,rfl⟩⟩ := mem_settleOperation mem
    · exact absurd rfl unsettled'
    · rw [entriesOf_other (foreign other)] at found
      exact h.incomplete _ known unsettled' x found
  · intro p mem succeeded
    obtain ⟨q,known,⟨same,rfl⟩ | ⟨other,rfl⟩⟩ := mem_settleOperation mem
    · obtain rfl := inj_on_of_nodup_map ids known member same
      have finished := finishing.append (e := e) (fun _ => quiet)
      refine ⟨⟨e,role,cycle,turn,findings⟩,?_,body,?_,?_,
        ⟨finished.range,finished.markers,finished.remediated⟩⟩
      · exact mem_entriesOf.mpr ⟨mem_append_right _ mem_cons_self,own⟩
      · intro x found
        rcases mem_entriesOf_append found with old | ⟨rfl,-⟩
        · rw [numbered]
          exact (logged.bounded x (mem_entriesOf.mp old).1).le
        · exact le_rfl
      · intro x found completes
        rcases mem_entriesOf_append found with old | ⟨rfl,-⟩
        · rw [h.incomplete _ member unsettled x old] at completes
          contradiction
        · rfl
    · obtain ⟨c,completed⟩ := h.settled _ known succeeded
      exact ⟨c,completed.append (foreign other)⟩
  · intro p mem unsettled' _
    obtain ⟨q,known,⟨-,rfl⟩ | ⟨other,rfl⟩⟩ := mem_settleOperation mem
    · exact absurd rfl unsettled'
    · refine (h.unmarked _ known unsettled' ?_).append (fun own' => absurd own' (foreign other))
      intro isOpen'
      exact absurd (congrArg OperationRow.operationId (Option.some.inj (isOpen'.symm.trans isOpen)))
        other
  · intro l recorded
    contradiction

theorem Progress.add (owned : Owned operations entries accepted)
    (closed : openOperation operations = none)
    (fresh : ∀ p ∈ added, p.operationId ∉ operations.map (·.operationId))
    (ready : ∀ p ∈ added, p.status ≠ .succeeded) :
    Progress (operations ++ added) entries accepted turns latest := by
  have succeeded : ∀ o ∈ operations, o.status = .succeeded := by
    intro o mem
    simpa using find?_eq_none.mp closed o mem
  have silent {p : OperationRow} (new : p ∈ added) {x : Entry}
      (found : x ∈ entriesOf entries p.operationId) : False := by
    rw [entriesOf_fresh owned (fresh p new)] at found
    exact not_mem_nil found
  refine ⟨?_,?_,?_,?_,?_⟩
  · intro p mem kind x found
    rcases mem_append.mp mem with old | new
    · exact h.remediate p old kind x found
    · exact (silent new found).elim
  · intro p mem unsettled x found
    rcases mem_append.mp mem with old | new
    · exact absurd (succeeded p old) unsettled
    · exact (silent new found).elim
  · intro p mem settled
    rcases mem_append.mp mem with old | new
    · exact h.settled p old settled
    · exact absurd settled (ready p new)
  · intro p mem unsettled _
    rcases mem_append.mp mem with old | new
    · exact absurd (succeeded p old) unsettled
    · refine ⟨fun x found => (silent new found).elim,?_⟩
      intro role marked
      exact fresh p new (owned.accepted _ marked)
  · intro l recorded
    obtain ⟨o,isOpen,-⟩ := h.latest l recorded
    rw [closed] at isOpen
    contradiction

end Progressing

theorem Owned.add (h : Owned operations entries accepted)
    (ordinals : added.map (·.ordinal) = range' operations.length added.length)
    (kinds : ∀ o ∈ added, o.kind = (operationKind o).asWireName)
    (ids : (operations.map (·.operationId) ++ added.map (·.operationId)).Nodup) :
    Owned (operations ++ added) entries accepted := by
  have known {id : OperationId} (mem : id ∈ operations.map (·.operationId)) :
      id ∈ (operations ++ added).map (·.operationId) := by
    rw [map_append]
    exact mem_append_left _ mem
  refine ⟨?_,?_,?_,fun e mem id own => known (h.entries e mem id own),
    fun x mem => known (h.accepted x mem)⟩
  · rw [map_append,h.ordinals,ordinals,length_append,range_eq_range',
      range_eq_range']
    have joined := @List.range'_append 0 operations.length added.length 1
    simpa using joined
  · intro o mem
    rcases mem_append.mp mem with old | new
    · exact h.kinds o old
    · exact kinds o new
  · rw [map_append]
    exact ids

end

end Journal

end Runtime
