import Factory.Extension.PlannedState

namespace Extension

open Result List Machine Option

inductive ReviewOperation where
  | record (review : FactoryReviewReport)
  | remediate (dispositions : List FactoryRemediationRecord)
  | prepare
  | rollback
  | commit
  deriving DecidableEq

namespace ReviewOperation

def apply (state : FactoryState) : ReviewOperation → FactoryState
  | .record review => state.recordReview review
  | .remediate dispositions => (remediation dispositions state).toOption.getD state
  | .prepare => state.prepareReviewRecovery
  | .rollback => state.rollbackReviewRecovery.2
  | .commit => state.commitReviewRecovery.2

def turn : ReviewOperation → Option String
  | .record review => review.recordedTurnId
  | _ => none

def isCall : ReviewOperation → Bool
  | .record _ | .remediate _ => true
  | _ => false

def ownsRecovery : ReviewOperation → Bool
  | .prepare | .rollback | .commit => true
  | _ => false

def Uninterrupted (turn : String) : List ReviewOperation → Prop
  | [] => True
  | operation :: rest =>
    if operation.isCall ∧ operation.turn ≠ some turn then
      ∀ later ∈ rest, later.turn ≠ some turn
    else Uninterrupted turn rest

def Contiguous : List ReviewOperation → Prop
  | [] => True
  | operation :: rest =>
    (∀ turn ∈ operation.turn, Uninterrupted turn rest) ∧ Contiguous rest

def undone : List ReviewOperation → Bool
  | [] => false
  | .rollback :: _ | .prepare :: _ => true
  | .commit :: _ => false
  | .record _ :: rest | .remediate _ :: rest => undone rest

variable {between after : List ReviewOperation} {operation last : ReviewOperation}

theorem Uninterrupted.call {turn : String} (h : Uninterrupted turn (between ++ last :: after))
    (again : last.turn = some turn) (mem : operation ∈ between) (call : operation.isCall = true) :
    operation.turn = some turn := by
  induction between with
  | nil => cases mem
  | cons first rest ih =>
    rw [cons_append,Uninterrupted] at h
    split at h
    · exact absurd again (h last (mem_append_right _ mem_cons_self))
    · rename_i same
      rcases mem_cons.mp mem with rfl | later
      · by_contra other
        exact same ⟨call,other⟩
      · exact ih h later

variable {operations more : List ReviewOperation}

theorem Uninterrupted.start {turn : String} (h : Uninterrupted turn (operations ++ more)) :
    Uninterrupted turn operations := by
  induction operations with
  | nil => trivial
  | cons operation rest ih =>
    rw [cons_append,Uninterrupted] at h
    rw [Uninterrupted]
    split
    · rename_i other
      rw [if_pos other] at h
      exact fun later mem => h later (mem_append_left _ mem)
    · rename_i same
      rw [if_neg same] at h
      exact ih h

theorem Contiguous.start (h : Contiguous (operations ++ more)) : Contiguous operations := by
  induction operations with
  | nil => trivial
  | cons operation rest ih => exact ⟨fun turn named => (h.1 turn named).start,ih h.2⟩

theorem Contiguous.call {before : List ReviewOperation} {first : ReviewOperation} {turn : String}
    (h : Contiguous (before ++ first :: (between ++ last :: after)))
    (started : first.turn = some turn) (again : last.turn = some turn) (mem : operation ∈ between)
    (call : operation.isCall = true) :
    operation.turn = some turn := by
  induction before with
  | nil => exact (h.1 turn started).call again mem call
  | cons head rest ih => exact ih h.2

end ReviewOperation

open ReviewOperation

theorem closeReviewCycle_recovery (state : FactoryState) :
    state.closeReviewCycle.reviewRecovery = state.reviewRecovery := by
  unfold FactoryState.closeReviewCycle
  split <;> rfl

theorem recordReview_recovery (report : FactoryReviewReport) (state : FactoryState) :
    (state.recordReview report).reviewRecovery = state.reviewRecovery := by
  unfold FactoryState.recordReview
  split
  · rfl
  · exact closeReviewCycle_recovery state

namespace FactoryState

def reviewed (state : FactoryState) :
    Option FactoryReviewReport × List FactoryRemediationRecord × List FactoryReviewCycle :=
  (state.review, state.remediations, state.reviewHistory)

def generations (review : Option FactoryReviewReport) (history : List FactoryReviewCycle) :
    List Nat :=
  history.map (·.review.generation) ++ review.toList.map (·.generation)

def presentGenerations (state : FactoryState) : List Nat :=
  generations state.review state.reviewHistory ++
    (state.reviewRecovery.map (fun saved => generations saved.review saved.reviewHistory)).getD []

def closing (state : FactoryState) : List FactoryReviewCycle :=
  match state.remediations, state.review with
  | [], _ => []
  | _, none => []
  | remediations, some review => [⟨review, remediations⟩]

theorem mem_closing {state : FactoryState} {cycle : FactoryReviewCycle} :
    cycle ∈ state.closing ↔ state.review = some cycle.review ∧
      state.remediations = cycle.remediations ∧ cycle.remediations ≠ [] := by
  obtain ⟨report,dispositions⟩ := cycle
  unfold closing
  cases remediated : state.remediations with
  | nil => simp [eq_comm]
  | cons disposition rest =>
    cases current : state.review with
    | none => simp
    | some review =>
      simp only [mem_singleton,FactoryReviewCycle.mk.injEq,some.injEq]
      constructor
      · rintro ⟨rfl,rfl⟩
        simp
      · rintro ⟨rfl,rfl,-⟩
        exact ⟨rfl,rfl⟩

theorem closing_cases (state : FactoryState) :
    state.closing = [] ∨ ∃ cycle, state.closing = [cycle] := by
  unfold closing
  split
  · exact .inl rfl
  · exact .inl rfl
  · exact .inr ⟨_,rfl⟩

variable {report : FactoryReviewReport}

theorem sameTurn_iff {state : FactoryState} :
    state.sameTurn report = true ↔ ∃ current turn, state.review = some current ∧
      current.recordedTurnId = some turn ∧ report.recordedTurnId = some turn := by
  unfold sameTurn
  cases state.review with
  | none => simp
  | some current =>
    cases named : current.recordedTurnId with
    | none => simp [named]
    | some turn => simp [named,eq_comm]

theorem recordReview_same {state : FactoryState} (same : state.sameTurn report = true) :
    (state.recordReview report).reviewed =
      (some { report with generation := max state.currentGeneration 1 }, state.remediations,
        state.reviewHistory) := by
  rw [recordReview,if_pos same]
  rfl

theorem recordReview_other {state : FactoryState} (other : state.sameTurn report = false) :
    (state.recordReview report).reviewed =
      (some { report with generation := saturatingSucc state.currentGeneration }, [],
        state.reviewHistory ++ state.closing) := by
  rw [recordReview,if_neg (by simp [other])]
  unfold closeReviewCycle reviewed closing
  cases remediated : state.remediations with
  | nil => simp
  | cons disposition rest =>
    cases current : state.review with
    | none => simp
    | some review => simp

theorem recordReview_reviewed {state other : FactoryState} (report : FactoryReviewReport)
    (same : state.reviewed = other.reviewed) :
    (state.recordReview report).reviewed = (other.recordReview report).reviewed := by
  simp only [reviewed,Prod.mk.injEq] at same
  obtain ⟨review,remediations,history⟩ := same
  have generation : state.currentGeneration = other.currentGeneration := by
    rw [currentGeneration,currentGeneration,review,history]
  have turn : state.sameTurn report = other.sameTurn report := by
    rw [sameTurn,sameTurn,review]
  cases decided : other.sameTurn report with
  | true =>
    rw [recordReview_same decided,recordReview_same (turn.trans decided),generation,
      remediations,history]
  | false =>
    have closing : state.closing = other.closing := by
      rw [closing,closing,remediations,review]
    rw [recordReview_other decided,recordReview_other (turn.trans decided),generation,history,
      closing]

end FactoryState

open FactoryState

theorem remediate_cases (dispositions : List FactoryRemediationRecord) (state : FactoryState) :
    (remediate dispositions).apply state = state ∨
      ((remediate dispositions).apply state = { state with remediations := dispositions } ∧
        ∃ review, state.review = some review ∧ ∀ disposition ∈ dispositions,
          ∃ finding ∈ review.findings,
            finding.id = disposition.findingId ∧ finding.unitId = disposition.unitId) := by
  have applied : (remediate dispositions).apply state =
      (remediation dispositions state).toOption.getD state := rfl
  cases outcome : remediation dispositions state with
  | error message =>
    rw [applied,outcome]
    exact .inl rfl
  | ok after =>
    obtain ⟨review,current,-,texts,-,rfl⟩ := Planned.remediation_ok outcome
    rw [applied,outcome]
    refine .inr ⟨rfl,review,current,fun disposition mem => ?_⟩
    obtain ⟨front,back,split,-⟩ := lookup_eq_some_iff.mp (texts disposition mem).known
    have listed : (disposition.findingId, disposition.unitId) ∈
        (review.findings.map (fun finding => (finding.id, finding.unitId))).reverse := by
      rw [split]
      exact mem_append_right _ mem_cons_self
    obtain ⟨finding,known,same⟩ := mem_map.mp (mem_reverse.mp listed)
    exact ⟨finding,known,congrArg Prod.fst same,congrArg Prod.snd same⟩

def Recorded (turn : String) (past : List ReviewOperation) : Prop :=
  ∃ operation ∈ past, operation.turn = some turn

def Remediated (turn : String) (past : List ReviewOperation) : Prop :=
  ∃ before operation after, past = before ++ operation :: after ∧ operation.turn = some turn ∧
    ∃ dispositions, .remediate dispositions ∈ after

theorem Recorded.later {turn : String} {past : List ReviewOperation} (h : Recorded turn past)
    (more : List ReviewOperation) : Recorded turn (past ++ more) := by
  obtain ⟨operation,mem,recorded⟩ := h
  exact ⟨operation,mem_append_left _ mem,recorded⟩

theorem Remediated.later {turn : String} {past : List ReviewOperation} (h : Remediated turn past)
    (more : List ReviewOperation) : Remediated turn (past ++ more) := by
  obtain ⟨before,operation,after,rfl,recorded,dispositions,mem⟩ := h
  refine ⟨before,operation,after ++ more,by simp,recorded,dispositions,?_⟩
  exact mem_append_left _ mem

theorem Recorded.remediated {turn : String} {past : List ReviewOperation} (h : Recorded turn past)
    (dispositions : List FactoryRemediationRecord) :
    Remediated turn (past ++ [.remediate dispositions]) := by
  obtain ⟨operation,mem,recorded⟩ := h
  obtain ⟨before,after,rfl⟩ := append_of_mem mem
  refine ⟨before,operation,after ++ [.remediate dispositions],by simp,recorded,dispositions,?_⟩
  exact mem_append_right _ mem_cons_self

theorem Remediated.closed {turn : String} {past : List ReviewOperation} {last : ReviewOperation}
    (h : Remediated turn past) (contiguous : Contiguous (past ++ [last])) :
    last.turn ≠ some turn := by
  intro again
  obtain ⟨before,first,after,rfl,started,dispositions,mem⟩ := h
  have shape : before ++ first :: after ++ [last] = before ++ first :: (after ++ last :: []) := by
    simp
  rw [shape] at contiguous
  exact absurd (contiguous.call started again mem rfl) (by simp [ReviewOperation.turn])

structure SoundReview (past : List ReviewOperation) (review : Option FactoryReviewReport)
    (remediations : List FactoryRemediationRecord) (history : List FactoryReviewCycle) : Prop where
  increasing : (history.map (·.review.generation)).Pairwise (· < ·)
  below : ∀ current ∈ review, ∀ cycle ∈ history, cycle.review.generation < current.generation
  unreviewed : review = none → remediations = [] ∧ history = []
  refers : ∀ disposition ∈ remediations, ∃ current ∈ review, ∃ finding ∈ current.findings,
    finding.id = disposition.findingId ∧ finding.unitId = disposition.unitId
  recorded : ∀ current ∈ review, ∀ turn ∈ current.recordedTurnId, Recorded turn past
  remediated : remediations ≠ [] → ∀ current ∈ review, ∀ turn ∈ current.recordedTurnId,
    Remediated turn past

structure SoundRecovery (past : List ReviewOperation) (state : FactoryState) : Prop where
  current : SoundReview past state.review state.remediations state.reviewHistory
  saved : ∀ baseline ∈ state.reviewRecovery,
    SoundReview past baseline.review baseline.remediations baseline.reviewHistory ∧
      ∀ generation ∈ generations baseline.review baseline.reviewHistory,
        generation ≤ state.currentGeneration

variable {past : List ReviewOperation} {state : FactoryState} {review : Option FactoryReviewReport}
  {remediations : List FactoryRemediationRecord} {history : List FactoryReviewCycle}

theorem SoundReview.later (h : SoundReview past review remediations history)
    (more : List ReviewOperation) : SoundReview (past ++ more) review remediations history :=
  ⟨h.increasing,h.below,h.unreviewed,h.refers,
    fun current hit turn named => (h.recorded current hit turn named).later more,
    fun some current hit turn named => (h.remediated some current hit turn named).later more⟩

variable {report : FactoryReviewReport} {cycle : FactoryReviewCycle}

section SoundReviews

variable (h : SoundReview past state.review state.remediations state.reviewHistory)

include h

theorem SoundReview.generations_le :
    ∀ generation ∈ generations state.review state.reviewHistory,
      generation ≤ state.currentGeneration := by
  intro generation mem
  unfold currentGeneration
  cases current : state.review with
  | none =>
    rw [current,(h.unreviewed current).2] at mem
    cases mem
  | some report =>
    rw [current] at mem
    rcases mem_append.mp mem with old | now
    · obtain ⟨cycle,known,rfl⟩ := mem_map.mp old
      exact Nat.le_of_lt (h.below report current cycle known)
    · rw [mem_singleton.mp now]
      exact Nat.le_refl _

theorem SoundReview.record_same (contiguous : Contiguous (past ++ [.record report]))
    (same : state.sameTurn report = true) :
    SoundReview (past ++ [.record report])
      (some { report with generation := max state.currentGeneration 1 }) state.remediations
      state.reviewHistory := by
  obtain ⟨current,turn,found,named,again⟩ := sameTurn_iff.mp same
  have untouched : state.remediations = [] := by
    by_contra some
    exact (h.remediated some current found turn named).closed contiguous again
  have present := h.generations_le
  refine ⟨h.increasing,?_,fun none => absurd none (by simp),?_,?_,?_⟩
  · intro recorded hit cycle known
    obtain rfl := some.inj hit
    have before := h.below current found cycle known
    have now := present current.generation (mem_append_right _ (by simp [found]))
    simp only
    omega
  · rw [untouched]
    simp
  · intro recorded hit turn named
    obtain rfl := some.inj hit
    exact ⟨.record report,mem_append_right _ mem_cons_self,named⟩
  · exact fun some => absurd untouched some

theorem SoundReview.record_other (bounded : state.currentGeneration < u64Max) :
    SoundReview (past ++ [.record report])
      (some { report with generation := saturatingSucc state.currentGeneration }) []
      (state.reviewHistory ++ state.closing) := by
  have present := h.generations_le
  have next : saturatingSucc state.currentGeneration = state.currentGeneration + 1 := by
    unfold saturatingSucc
    omega
  refine ⟨?_,?_,fun none => absurd none (by simp),by simp,?_,by simp⟩
  · rcases state.closing_cases with empty | ⟨cycle,single⟩
    · rw [empty,append_nil]
      exact h.increasing
    · have current := (mem_closing.mp (single ▸ mem_cons_self : cycle ∈ state.closing)).1
      rw [single,map_append,pairwise_append]
      refine ⟨h.increasing,pairwise_singleton _ _,?_⟩
      intro old before new now
      obtain ⟨earlier,known,rfl⟩ := mem_map.mp before
      rw [mem_singleton.mp now]
      exact h.below cycle.review current earlier known
  · intro recorded hit cycle known
    obtain rfl := some.inj hit
    simp only
    rw [next]
    rcases mem_append.mp known with old | new
    · have := present _ (mem_append_left _ (mem_map_of_mem old))
      omega
    · have := present cycle.review.generation
        (mem_append_right _ (by simp [(mem_closing.mp new).1]))
      omega
  · intro recorded hit turn named
    obtain rfl := some.inj hit
    exact ⟨.record report,mem_append_right _ mem_cons_self,named⟩

end SoundReviews

theorem recordReview_grows (bounded : state.currentGeneration < u64Max) :
    state.currentGeneration ≤ (state.recordReview report).currentGeneration := by
  have recorded := (Planned.recordReview_fields report state).2.1
  simp only [currentGeneration,recorded,map_some,some_or,getD_some]
  change state.currentGeneration ≤ Planned.recordedGeneration report state
  unfold Planned.recordedGeneration saturatingSucc
  split
  · omega
  · omega

section Recovering

variable (h : SoundRecovery past state)

include h

theorem SoundRecovery.record (contiguous : Contiguous (past ++ [.record report]))
    (bounded : state.currentGeneration < u64Max) :
    SoundRecovery (past ++ [.record report]) (state.recordReview report) := by
  refine ⟨?_,fun baseline hit => ?_⟩
  · cases turn : state.sameTurn report with
    | true =>
      have fields := recordReview_same turn
      simp only [reviewed,Prod.mk.injEq] at fields
      rw [fields.1,fields.2.1,fields.2.2]
      exact h.current.record_same contiguous turn
    | false =>
      have fields := recordReview_other turn
      simp only [reviewed,Prod.mk.injEq] at fields
      rw [fields.1,fields.2.1,fields.2.2]
      exact h.current.record_other bounded
  · rw [recordReview_recovery] at hit
    obtain ⟨sound,present⟩ := h.saved baseline hit
    refine ⟨sound.later _,fun generation mem => ?_⟩
    exact Nat.le_trans (present generation mem) (recordReview_grows bounded)

theorem SoundRecovery.later (more : List ReviewOperation) :
    SoundRecovery (past ++ more) state :=
  ⟨h.current.later more,fun baseline hit => ⟨(h.saved baseline hit).1.later more,
    (h.saved baseline hit).2⟩⟩

theorem SoundRecovery.remediate (dispositions : List FactoryRemediationRecord) :
    SoundRecovery (past ++ [.remediate dispositions])
      ((remediate dispositions).apply state) := by
  rcases remediate_cases dispositions state with same | ⟨changed,current,found,refers⟩
  · rw [same]
    exact h.later _
  · rw [changed]
    have kept := h.current.later [.remediate dispositions]
    refine ⟨⟨kept.increasing,kept.below,fun none => ?_,fun disposition mem => ?_,kept.recorded,
      fun _ report hit turn named => ?_⟩,(h.later _).saved⟩
    · exact absurd (found.symm.trans none) (by simp)
    · exact ⟨current,found,refers disposition mem⟩
    · exact (h.current.recorded report hit turn named).remediated dispositions

theorem SoundRecovery.rollback :
    SoundRecovery past state.rollbackReviewRecovery.2 ∧
      state.rollbackReviewRecovery.2.reviewRecovery = none := by
  unfold rollbackReviewRecovery
  split
  · rename_i closed
    exact ⟨h,closed⟩
  · rename_i baseline opened
    exact ⟨⟨(h.saved baseline opened).1,fun other hit => absurd hit (by simp)⟩,rfl⟩

theorem SoundRecovery.prepare :
    SoundRecovery past state.prepareReviewRecovery := by
  obtain ⟨restored,-⟩ := h.rollback
  refine ⟨restored.current,fun baseline hit => ?_⟩
  obtain rfl := some.inj hit
  exact ⟨restored.current,restored.current.generations_le⟩

end Recovering

variable {operation : ReviewOperation}

theorem SoundRecovery.step (h : SoundRecovery past state)
    (contiguous : Contiguous (past ++ [operation])) (bounded : state.currentGeneration < u64Max) :
    SoundRecovery (past ++ [operation]) (operation.apply state) := by
  cases operation with
  | record report => exact h.record contiguous bounded
  | remediate dispositions => exact h.remediate dispositions
  | prepare => exact (h.later _).prepare
  | rollback => exact (h.later _).rollback.1
  | commit =>
    refine ⟨(h.later _).current,fun baseline hit => ?_⟩
    cases hit

def Bounded64 (state : FactoryState) (_ : ReviewOperation) : Prop :=
  state.currentGeneration < u64Max

variable {operations : List ReviewOperation}

theorem sound_run {start : FactoryState} (fresh : SoundRecovery [] start)
    (contiguous : Contiguous operations)
    (bounded : Machine.Along apply Bounded64 start operations) :
    SoundRecovery operations (run apply start operations) := by
  induction operations using reverseRecOn with
  | nil => exact fresh
  | append_singleton operations last ih =>
    obtain ⟨before,now⟩ := along_append.mp bounded
    rw [run_append]
    exact (ih contiguous.start before).step contiguous now.1

theorem apply_recovery (call : operation.ownsRecovery = false) (state : FactoryState) :
    (operation.apply state).reviewRecovery = state.reviewRecovery := by
  cases operation with
  | record report => exact recordReview_recovery report state
  | remediate dispositions =>
    rcases remediate_cases dispositions state with same | ⟨changed,-⟩
    · rw [same]
    · rw [changed]
  | prepare | rollback | commit => cases call

theorem apply_history (call : operation.ownsRecovery = false) (state : FactoryState) :
    state.reviewHistory ⊆ (operation.apply state).reviewHistory := by
  cases operation with
  | record report =>
    change state.reviewHistory ⊆ (state.recordReview report).reviewHistory
    cases turn : state.sameTurn report with
    | true =>
      have fields := recordReview_same turn
      simp only [reviewed,Prod.mk.injEq] at fields
      rw [fields.2.2]
      exact List.Subset.refl _
    | false =>
      have fields := recordReview_other turn
      simp only [reviewed,Prod.mk.injEq] at fields
      rw [fields.2.2]
      exact subset_append_left _ _
  | remediate dispositions =>
    rcases remediate_cases dispositions state with same | ⟨changed,-⟩
    · rw [same]
      exact List.Subset.refl _
    · rw [changed]
      exact List.Subset.refl _
  | prepare | rollback | commit => cases call

theorem rollback_retains (mem : cycle ∈ state.reviewHistory)
    (saved : ∀ baseline ∈ state.reviewRecovery, cycle ∈ baseline.reviewHistory) :
    cycle ∈ state.rollbackReviewRecovery.2.reviewHistory := by
  unfold rollbackReviewRecovery
  split
  · exact mem
  · rename_i baseline opened
    exact saved baseline opened

theorem run_retains {cycle : FactoryReviewCycle} {operations : List ReviewOperation}
    (mem : cycle ∈ state.reviewHistory)
    (kept : undone operations = false ∨
      ∀ baseline ∈ state.reviewRecovery, cycle ∈ baseline.reviewHistory) :
    cycle ∈ (run apply state operations).reviewHistory := by
  induction operations generalizing state with
  | nil => exact mem
  | cons operation rest ih =>
    have call : operation.ownsRecovery = false → (undone (operation :: rest) = false →
        undone rest = false) → cycle ∈ (run apply (operation.apply state)
          rest).reviewHistory := by
      intro call same
      refine ih (apply_history call state mem) (kept.imp same fun saved => ?_)
      rw [apply_recovery call]
      exact saved
    cases operation with
    | record | remediate => exact call rfl id
    | prepare =>
      have saved := kept.resolve_left (by simp [undone])
      have restored := rollback_retains mem saved
      refine ih restored (.inr fun baseline hit => ?_)
      obtain rfl := some.inj hit
      exact restored
    | rollback =>
      have saved := kept.resolve_left (by simp [undone])
      refine ih (rollback_retains mem saved) (.inr fun baseline hit => ?_)
      change baseline ∈ state.rollbackReviewRecovery.2.reviewRecovery at hit
      unfold rollbackReviewRecovery at hit
      split at hit
      · rename_i closed
        rw [closed] at hit
        cases hit
      · cases hit
    | commit => exact ih mem (.inr fun baseline hit => nomatch hit)

theorem run_recovery (calls : ∀ operation ∈ operations, operation.ownsRecovery = false)
    (state : FactoryState) :
    (run apply state operations).reviewRecovery = state.reviewRecovery := by
  induction operations generalizing state with
  | nil => rfl
  | cons operation rest ih =>
    obtain ⟨call,later⟩ := forall_mem_cons.mp calls
    exact (ih later (operation.apply state)).trans (apply_recovery call state)

theorem rollback_reviewed {baseline : FactoryReviewRecoveryBaseline}
    (opened : state.reviewRecovery = some baseline) :
    state.rollbackReviewRecovery.2.reviewed =
      (baseline.review, baseline.remediations, baseline.reviewHistory) := by
  rw [rollbackReviewRecovery,opened]
  rfl

theorem rerecord_after_rollback (report : FactoryReviewReport) {partialCalls : List ReviewOperation}
    (calls : ∀ operation ∈ partialCalls, operation.ownsRecovery = false) (state : FactoryState) :
    (run apply state
        (.prepare :: (partialCalls ++ [.rollback, .record report]))).reviewed =
      (run apply state [.prepare, .record report]).reviewed := by
  change (run apply state.prepareReviewRecovery
    (partialCalls ++ [.rollback,.record report])).reviewed = _
  rw [run_append]
  refine recordReview_reviewed report ?_
  have opened := run_recovery calls state.prepareReviewRecovery
  exact rollback_reviewed opened

theorem generations_increase (h : SoundRecovery past state)
    (bounded : state.currentGeneration < u64Max) (other : state.sameTurn report = false) :
    ∃ recorded, (state.recordReview report).review = some recorded ∧
      ∀ generation ∈ state.presentGenerations, generation < recorded.generation := by
  refine ⟨_,(Planned.recordReview_fields report state).2.1,fun generation mem => ?_⟩
  have present : generation ≤ state.currentGeneration := by
    rcases mem_append.mp mem with now | old
    · exact h.current.generations_le generation now
    · cases opened : state.reviewRecovery with
      | none =>
        rw [opened] at old
        cases old
      | some baseline =>
        rw [opened] at old
        exact (h.saved baseline opened).2 generation old
  simp only [Planned.recordedGeneration,other,saturatingSucc]
  split
  · rename_i same
    cases same
  · omega

theorem closed_once (h : SoundRecovery past state) (mem : cycle ∈ state.reviewHistory) :
    state.reviewHistory.count cycle = 1 := by
  have distinct : (state.reviewHistory.map (·.review.generation)).Nodup :=
    h.current.increasing.imp Nat.ne_of_lt
  exact count_eq_one_of_mem (List.Nodup.of_map _ distinct) mem

theorem review_history_sound {units : List WorkUnitArgs} {planned start : FactoryState}
    (closed : planned.reviewRecovery = none) (decomposed : decompose units planned = .ok start)
    {operations : List ReviewOperation} (contiguous : Contiguous operations)
    (bounded : Machine.Along apply Bounded64 start operations) :
    let state := run apply start operations
    (state.reviewHistory.map (·.review.generation)).Pairwise (· < ·) ∧
      (∀ current ∈ state.review, ∀ cycle ∈ state.reviewHistory,
        cycle.review.generation < current.generation) ∧
      (∀ report, state.currentGeneration < u64Max → state.sameTurn report = false →
        ∃ recorded, (state.recordReview report).review = some recorded ∧
          ∀ generation ∈ state.presentGenerations, generation < recorded.generation) ∧
      (∀ before report after current, operations = before ++ .record report :: after →
        let earlier := run apply start before
        earlier.review = some current → earlier.remediations ≠ [] →
        earlier.sameTurn report = false →
        ¬ (earlier.reviewRecovery.isSome = true ∧ undone after = true) →
        state.reviewHistory.count ⟨current,earlier.remediations⟩ = 1) ∧
      (∀ disposition ∈ state.remediations, ∃ current ∈ state.review,
        ∃ finding ∈ current.findings, finding.id = disposition.findingId) ∧
      ∀ report partialCalls, (∀ operation ∈ partialCalls, operation.ownsRecovery = false) →
        (run apply state
            (.prepare :: (partialCalls ++ [.rollback,.record report]))).reviewed =
          (run apply state [.prepare,.record report]).reviewed := by
  have fresh : SoundRecovery [] start := by
    simp only [decompose,bind_ok,pure_ok] at decomposed
    obtain ⟨_,_,rfl⟩ := decomposed
    refine ⟨⟨.nil,by simp,by simp,by simp,by simp,by simp⟩,fun baseline hit => ?_⟩
    exact absurd (closed.symm.trans hit) (by simp)
  have sound := sound_run fresh contiguous bounded
  refine ⟨sound.current.increasing,sound.current.below,
    fun report below other => generations_increase sound below other,?_,?_,
    fun report partialCalls calls => rerecord_after_rollback report calls _⟩
  · rintro before report after current rfl earlier found remediated other kept
    refine closed_once sound ?_
    rw [run_append]
    have fields := recordReview_other other
    simp only [reviewed,Prod.mk.injEq] at fields
    have pushed : ⟨current,earlier.remediations⟩ ∈ (earlier.recordReview report).reviewHistory := by
      rw [fields.2.2]
      exact mem_append_right _ (mem_closing.mpr ⟨found,rfl,remediated⟩)
    refine @run_retains (earlier.recordReview report) _ after pushed ?_
    rw [recordReview_recovery]
    by_cases rolled : undone after = true
    · refine .inr fun baseline hit => ?_
      exact absurd ⟨by rw [mem_def.mp hit]; rfl,rolled⟩ kept
    · exact .inl (by simpa using rolled)
  · intro disposition mem
    obtain ⟨current,hit,finding,known,same,-⟩ := sound.current.refers disposition mem
    exact ⟨current,hit,finding,known,same⟩

def remediatedReview (turn : String) : FactoryReviewReport :=
  ⟨0, some turn, none, none, none, none, .requestChanges, "one finding",
    [⟨"f", .major, "u", "title", "evidence", "recommendation"⟩]⟩

def remediatedRun : List ReviewOperation :=
  [.record (remediatedReview "first"), .remediate [⟨"f", .resolved, "fixed", "u"⟩], .prepare,
    .record (remediatedReview "second"), .commit]

theorem review_history_sound_remediated :
    ∃ start, decompose [⟨"u", "title", "description", []⟩] .default = .ok start ∧
      (run apply start remediatedRun).reviewHistory.count
        ⟨{ remediatedReview "first" with generation := 1 }, [⟨"f", .resolved, "fixed", "u"⟩]⟩ =
        1 := by
  refine ⟨_,rfl,?_⟩
  have sound := @review_history_sound [⟨"u","title","description",[]⟩] .default _ rfl rfl
    remediatedRun (by simp [remediatedRun,Contiguous,Uninterrupted,turn,
      isCall,remediatedReview])
    ⟨by unfold Bounded64; decide,by unfold Bounded64; decide,by unfold Bounded64; decide,
      by unfold Bounded64; decide,by unfold Bounded64; decide,trivial⟩
  exact sound.2.2.2.1 (remediatedRun.take 3) (remediatedReview "second") [.commit] _ rfl rfl
    (by decide) (by decide) (by decide)

end Extension
