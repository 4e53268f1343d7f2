import Factory.Coordinator.Transition

namespace Coordinator

open Result Table List

structure AttemptRow.Kept (now : Timestamp) (a b : AttemptRow) : Prop where
  key : b.key = a.key
  fence : b.fence = a.fence
  settled : a.status ≠ .running → b.status ≠ .running
  lapsed : a.leaseExpiresAt ≤ now → b.leaseExpiresAt = a.leaseExpiresAt

theorem AttemptRow.Kept.refl (now : Timestamp) (a : AttemptRow) : a.Kept now a :=
  ⟨rfl,rfl,id,fun _ => rfl⟩

variable {now : Timestamp} {fences : List AttemptFence} {rows rows' : List AttemptRow}

theorem AttemptRow.Kept.attemptId {a b : AttemptRow} (h : a.Kept now b) :
    b.attemptId = a.attemptId :=
  congrArg AttemptFence.attemptId h.fence

inductive AttemptsStep (now : Timestamp) (rows : List AttemptRow) :
    List AttemptFence → List AttemptRow → Prop where
  | kept (g : AttemptRow → AttemptRow) (keeps : ∀ a ∈ rows, a.Kept now (g a)) :
      AttemptsStep now rows [] (rows.map g)
  | started (row : AttemptRow) (fresh : ∀ a ∈ rows, a.attemptId ≠ row.attemptId)
      (first : row.leaseEpoch = 1) :
      AttemptsStep now rows [row.fence] (rows ++ [row])
  | reclaimed (previous : AttemptRow) (g : AttemptRow → AttemptRow) (mem : previous ∈ rows)
      (identity : (g previous).key = previous.key)
      (epoch : (g previous).leaseEpoch = previous.leaseEpoch + 1)
      (others : ∀ a ∈ rows, a.attemptId ≠ previous.attemptId → g a = a) :
      AttemptsStep now rows [(g previous).fence] (rows.map g)

namespace Store

variable {now : Timestamp} {s t : Store} {fences : List AttemptFence}

theorem keeps_updateWhere {p : AttemptRow → Bool} {f : AttemptRow → AttemptRow}
    {rows : List AttemptRow} (h : ∀ a ∈ rows, p a = true → a.Kept now (f a)) :
    AttemptsStep now rows [] (updateWhere p f rows) := by
  refine .kept (fun r => if p r then f r else r) ?_
  intro a ha
  by_cases hp : p a = true
  · simpa only [hp,if_true] using h a ha hp
  · simpa only [if_neg hp] using AttemptRow.Kept.refl now a

theorem keeps_all (rows : List AttemptRow) : AttemptsStep now rows [] rows := by
  have h := @AttemptsStep.kept now rows id (fun a _ => AttemptRow.Kept.refl now a)
  rwa [map_id] at h

theorem keeps_finish (fence : AttemptFence) (status : AttemptState)
    (failure : AttemptRow → Option Json.Value) (finished : status ≠ .running)
    (rows : List AttemptRow) :
    AttemptsStep now rows [] (updateWhere (fun a => a.attemptId = fence.attemptId)
      (fun a => { a with status := status, failure := failure a }) rows) := by
  refine keeps_updateWhere ?_
  intro a _ _
  exact ⟨rfl,rfl,fun _ => finished,fun _ => rfl⟩

theorem settleSuccess_attempts (fence : AttemptFence) (context : AttemptContextRow) :
    (s.settle fence context .succeeded).attempts =
      updateWhere (fun a => a.attemptId = fence.attemptId)
        (fun a => { a with status := .succeeded, failure := a.failure }) s.attempts := by
  simp only [settle,settleSuccess]
  split <;> rfl

theorem settleFailure_attempts (fence : AttemptFence) (context : AttemptContextRow)
    (failure : AttemptFailure) :
    (s.settle fence context (.failed failure)).attempts =
      updateWhere (fun a => a.attemptId = fence.attemptId)
        (fun a => { a with status := .failed, failure := some failure.toValue })
        s.attempts := by
  simp only [settle,settleFailure]
  split <;> rfl

theorem settle_attempts (fence : AttemptFence) (context : AttemptContextRow)
    (settlement : AttemptSettlement) :
    AttemptsStep now s.attempts [] (s.settle fence context settlement).attempts := by
  cases settlement with
  | succeeded =>
    rw [settleSuccess_attempts]
    exact keeps_finish fence .succeeded (·.failure) (by decide) s.attempts
  | failed failure =>
    rw [settleFailure_attempts]
    exact keeps_finish fence .failed (fun _ => some failure.toValue) (by decide) s.attempts

theorem Claimed.attempts {request : ClaimRequest} {attemptId : AttemptId} {job : JobRow}
    {operation : OperationRow} {selection : RecoverySelection} {row : AttemptRow}
    (h : Claimed now request attemptId s job operation selection row t) :
    AttemptsStep now s.attempts [row.fence] t.attempts := by
  cases h with
  | started _ _ fresh row_eq =>
    subst row_eq
    exact .started _ fresh rfl
  | reclaimed latest previous _ _ found =>
    have hprevious := find?_some found
    have hid : previous.attemptId = latest.attemptId := (AttemptRow.lapsed_iff.mp hprevious).1
    have step := @AttemptsStep.reclaimed now s.attempts previous
      (fun a => if a.lapsed now latest.attemptId then
        a.reclaim now request selection.resume.ids else a)
      (mem_of_find?_eq_some found)
      (by simp only [hprevious,if_true]; rfl)
      (by simp only [hprevious,if_true]; rfl)
      (by
        intro a _ hother
        have hkeep : a.lapsed now latest.attemptId = false := by
          simp [AttemptRow.lapsed,← hid,hother]
        simp [hkeep])
    simp only [hprevious,if_true] at step
    exact step

theorem Transition.attempts {continued : Option JobId} (h : Transition now s continued fences t) :
    AttemptsStep now s.attempts fences t.attempts := by
  cases h with
  | idle => exact keeps_all s.attempts
  | environment _ change =>
    rw [change.tables.2.2]
    exact keeps_all s.attempts
  | leased fence row expiry found =>
    refine keeps_updateWhere ?_
    intro a _ hlive
    obtain ⟨_,_,hexpiry⟩ := AttemptRow.holds_iff.mp hlive
    exact ⟨rfl,rfl,id,fun hlapsed => absurd hexpiry (not_lt.mpr hlapsed)⟩
  | created _ _ _ _ result =>
    obtain ⟨_,_,_,_,rfl⟩ := createJob_ok result
    exact keeps_all s.attempts
  | continued _ _ _ _ result =>
    obtain ⟨_,_,_,_,_,_,_,_,_,_,_,rfl⟩ := continueJob_ok result
    exact keeps_all s.attempts
  | cancelled _ _ result =>
    obtain ⟨_,_,⟨_,rfl⟩ | ⟨_,_,rfl⟩ | ⟨_,_,rfl⟩⟩ := cancelJob_ok result
    all_goals exact keeps_all _
  | acknowledged fence _ result =>
    obtain ⟨_,_,_,_,rfl⟩ := acknowledgeJobCancellation_ok result
    exact keeps_finish fence .abandoned (fun _ => some jobCancelledFailure) (by decide)
      s.attempts
  | settled fence context settlement _ _ => exact settle_attempts fence context settlement
  | claimed _ _ _ _ _ _ _ _ _ claim => exact claim.attempts

end Store

theorem AttemptsStep.keys (h : AttemptsStep now rows fences rows')
    (unique : (rows.map (·.attemptId)).Nodup) :
    ∃ added, rows'.map (·.key) = rows.map (·.key) ++ added := by
  cases h with
  | kept g keeps =>
    refine ⟨[],?_⟩
    rw [append_nil,map_map]
    exact map_congr_left (fun a ha => (keeps a ha).key)
  | started row fresh first => exact ⟨[row.key],map_append ..⟩
  | reclaimed previous g mem identity epoch others =>
    refine ⟨[],?_⟩
    rw [append_nil,map_map]
    refine map_congr_left ?_
    intro a ha
    by_cases hsame : a.attemptId = previous.attemptId
    · obtain rfl := inj_on_of_nodup_map unique ha mem hsame
      exact identity
    · exact congrArg AttemptRow.key (others a ha hsame)

def issuedFor (attemptId : AttemptId) (issued : List AttemptFence) : List AttemptFence :=
  issued.filter (fun f => f.attemptId = attemptId)

def lastIssued (attemptId : AttemptId) (issued : List AttemptFence) : Option AttemptFence :=
  (issuedFor attemptId issued).getLast?

theorem issuedFor_append (attemptId : AttemptId) (xs ys : List AttemptFence) :
    issuedFor attemptId (xs ++ ys) = issuedFor attemptId xs ++ issuedFor attemptId ys :=
  filter_append ..

theorem issuedFor_other {attemptId : AttemptId} {f : AttemptFence} (h : f.attemptId ≠ attemptId) :
    issuedFor attemptId [f] = [] := by
  simp [issuedFor,h]

theorem issuedFor_own (f : AttemptFence) : issuedFor f.attemptId [f] = [f] := by
  simp [issuedFor]

structure Ledger (rows : List AttemptRow) (issued : List AttemptFence) : Prop where
  unique : (rows.map (·.attemptId)).Nodup
  owned : ∀ f ∈ issued, ∃ a ∈ rows, a.attemptId = f.attemptId
  last : ∀ a ∈ rows, lastIssued a.attemptId issued = some a.fence
  epochs : ∀ a ∈ rows,
    (issuedFor a.attemptId issued).map (·.leaseEpoch) = range' 1 a.leaseEpoch

namespace Ledger

variable {now : Timestamp} {rows : List AttemptRow} {issued : List AttemptFence}

theorem empty : Ledger [] [] :=
  ⟨nodup_nil,by simp,by simp,by simp⟩

theorem kept (h : Ledger rows issued) {g : AttemptRow → AttemptRow}
    (keeps : ∀ a ∈ rows, a.Kept now (g a)) : Ledger (rows.map g) issued := by
  have hid : (rows.map g).map (·.attemptId) = rows.map (·.attemptId) := by
    rw [map_map]
    exact map_congr_left (fun a ha => (keeps a ha).attemptId)
  refine ⟨by rw [hid]; exact h.unique,?_,?_,?_⟩
  · intro f hf
    obtain ⟨a,ha,hsame⟩ := h.owned f hf
    exact ⟨g a,mem_map_of_mem ha,(keeps a ha).attemptId.trans hsame⟩
  · intro b hb
    obtain ⟨a,ha,rfl⟩ := mem_map.mp hb
    rw [(keeps a ha).attemptId,(keeps a ha).fence]
    exact h.last a ha
  · intro b hb
    obtain ⟨a,ha,rfl⟩ := mem_map.mp hb
    have hepoch : (g a).leaseEpoch = a.leaseEpoch :=
      congrArg AttemptFence.leaseEpoch (keeps a ha).fence
    rw [(keeps a ha).attemptId,hepoch]
    exact h.epochs a ha

theorem issuedFor_fresh (h : Ledger rows issued) {attemptId : AttemptId}
    (fresh : ∀ a ∈ rows, a.attemptId ≠ attemptId) : issuedFor attemptId issued = [] := by
  refine filter_eq_nil_iff.mpr ?_
  intro f hf hsame
  obtain ⟨a,ha,howner⟩ := h.owned f hf
  exact fresh a ha (howner.trans (of_decide_eq_true hsame))

theorem started (h : Ledger rows issued) {row : AttemptRow}
    (fresh : ∀ a ∈ rows, a.attemptId ≠ row.attemptId) (first : row.leaseEpoch = 1) :
    Ledger (rows ++ [row]) (issued ++ [row.fence]) := by
  have hnone := h.issuedFor_fresh fresh
  have hown : issuedFor row.attemptId (issued ++ [row.fence]) = [row.fence] := by
    rw [issuedFor_append,hnone,nil_append]
    exact issuedFor_own row.fence
  have hother : ∀ a ∈ rows, issuedFor a.attemptId (issued ++ [row.fence]) =
      issuedFor a.attemptId issued := by
    intro a ha
    rw [issuedFor_append,issuedFor_other (fun hsame => fresh a ha hsame.symm),append_nil]
  refine ⟨nodup_concat h.unique fresh,?_,?_,?_⟩
  · intro f hf
    rcases mem_append.mp hf with hf | hf
    · obtain ⟨a,ha,hsame⟩ := h.owned f hf
      exact ⟨a,mem_append_left _ ha,hsame⟩
    · obtain rfl := mem_singleton.mp hf
      exact ⟨row,mem_append_right _ (mem_singleton_self row),rfl⟩
  · intro a ha
    rcases mem_append.mp ha with ha | ha
    · rw [lastIssued,hother a ha]
      exact h.last a ha
    · obtain rfl := mem_singleton.mp ha
      rw [lastIssued,hown,getLast?_singleton]
  · intro a ha
    rcases mem_append.mp ha with ha | ha
    · rw [hother a ha]
      exact h.epochs a ha
    · obtain rfl := mem_singleton.mp ha
      rw [hown,first]
      exact congrArg (fun n => [n]) first

theorem reclaimed (h : Ledger rows issued) {previous : AttemptRow} {g : AttemptRow → AttemptRow}
    (mem : previous ∈ rows) (identity : (g previous).attemptId = previous.attemptId)
    (epoch : (g previous).leaseEpoch = previous.leaseEpoch + 1)
    (others : ∀ a ∈ rows, a.attemptId ≠ previous.attemptId → g a = a) :
    Ledger (rows.map g) (issued ++ [(g previous).fence]) := by
  have hcases : ∀ a ∈ rows, a = previous ∨ a.attemptId ≠ previous.attemptId ∧ g a = a := by
    intro a ha
    by_cases hsame : a.attemptId = previous.attemptId
    · exact Or.inl (inj_on_of_nodup_map h.unique ha mem hsame)
    · exact Or.inr ⟨hsame,others a ha hsame⟩
  have hkey : ∀ a ∈ rows, (g a).attemptId = a.attemptId := by
    intro a ha
    rcases hcases a ha with rfl | ⟨_,hsame⟩
    · exact identity
    · rw [hsame]
  have hid : (rows.map g).map (·.attemptId) = rows.map (·.attemptId) := by
    rw [map_map]
    exact map_congr_left hkey
  have hown : issuedFor previous.attemptId (issued ++ [(g previous).fence]) =
      issuedFor previous.attemptId issued ++ [(g previous).fence] := by
    rw [issuedFor_append,← identity]
    exact congrArg _ (issuedFor_own (g previous).fence)
  have hother : ∀ a ∈ rows, a.attemptId ≠ previous.attemptId →
      issuedFor a.attemptId (issued ++ [(g previous).fence]) = issuedFor a.attemptId issued := by
    intro a _ hne
    rw [issuedFor_append,issuedFor_other,append_nil]
    exact fun hsame => hne (hsame.symm.trans identity)
  refine ⟨by rw [hid]; exact h.unique,?_,?_,?_⟩
  · intro f hf
    rcases mem_append.mp hf with hf | hf
    · obtain ⟨a,ha,hsame⟩ := h.owned f hf
      exact ⟨g a,mem_map_of_mem ha,(hkey a ha).trans hsame⟩
    · obtain rfl := mem_singleton.mp hf
      exact ⟨g previous,mem_map_of_mem mem,rfl⟩
  · intro b hb
    obtain ⟨a,ha,rfl⟩ := mem_map.mp hb
    rw [hkey a ha,lastIssued]
    rcases hcases a ha with rfl | ⟨hne,hsame⟩
    · rw [hown,getLast?_concat]
    · rw [hother a ha hne,hsame]
      exact h.last a ha
  · intro b hb
    obtain ⟨a,ha,rfl⟩ := mem_map.mp hb
    rw [hkey a ha]
    rcases hcases a ha with rfl | ⟨hne,hsame⟩
    · rw [hown,map_append,h.epochs a ha,epoch,range'_1_concat]
      exact congrArg (fun n => _ ++ [n]) (epoch.trans (Nat.add_comm _ _))
    · rw [hother a ha hne,hsame]
      exact h.epochs a ha

theorem step (h : Ledger rows issued) {fences : List AttemptFence} {rows' : List AttemptRow}
    (hstep : AttemptsStep now rows fences rows') : Ledger rows' (issued ++ fences) := by
  cases hstep with
  | kept g keeps =>
    rw [append_nil]
    exact h.kept keeps
  | started row fresh first => exact h.started fresh first
  | reclaimed previous g mem identity epoch others =>
    exact h.reclaimed mem (congrArg Prod.fst identity) epoch others

end Ledger

def Spent (clock : Timestamp) (fence : AttemptFence) (rows : List AttemptRow) : Prop :=
  ∃ a ∈ rows, a.attemptId = fence.attemptId ∧ fence.leaseEpoch ≤ a.leaseEpoch ∧
    (fence.leaseEpoch < a.leaseEpoch ∨ a.status ≠ .running ∨ a.leaseExpiresAt ≤ clock)

theorem Spent.step {clock : Timestamp} {fence : AttemptFence} (h : Spent clock fence rows)
    (unique : (rows.map (·.attemptId)).Nodup) (hclock : clock ≤ now)
    (hstep : AttemptsStep now rows fences rows') : Spent now fence rows' := by
  obtain ⟨a,ha,hid,hle,hspent⟩ := h
  cases hstep with
  | kept g keeps =>
    have hkept := keeps a ha
    have hepoch : (g a).leaseEpoch = a.leaseEpoch :=
      congrArg AttemptFence.leaseEpoch hkept.fence
    refine ⟨g a,mem_map_of_mem ha,hkept.attemptId.trans hid,hepoch ▸ hle,?_⟩
    rcases hspent with hnewer | hsettled | hlapsed
    · exact Or.inl (hepoch ▸ hnewer)
    · exact Or.inr (Or.inl (hkept.settled hsettled))
    · have hexpiry := hkept.lapsed (hlapsed.trans hclock)
      exact Or.inr (Or.inr (hexpiry ▸ hlapsed.trans hclock))
  | started row fresh first =>
    refine ⟨a,mem_append_left _ ha,hid,hle,?_⟩
    exact hspent.imp_right (Or.imp_right (fun hlapsed => hlapsed.trans hclock))
  | reclaimed previous g mem identity epoch others =>
    by_cases hsame : a.attemptId = previous.attemptId
    · obtain rfl := inj_on_of_nodup_map unique ha mem hsame
      have hidentity : (g a).attemptId = a.attemptId := congrArg Prod.fst identity
      refine ⟨g a,mem_map_of_mem ha,hidentity.trans hid,?_,Or.inl ?_⟩ <;> omega
    · refine ⟨a,?_,hid,hle,?_⟩
      · have hmem := mem_map_of_mem (f := g) ha
        rwa [others a ha hsame] at hmem
      · exact hspent.imp_right (Or.imp_right (fun hlapsed => hlapsed.trans hclock))

namespace System

structure Live (sys : System) (now : Timestamp) (fence : AttemptFence) : Prop where
  last : lastIssued fence.attemptId sys.issued = some fence
  held : ∃ a ∈ sys.store.attempts, a.attemptId = fence.attemptId ∧ a.status = .running ∧
    now < a.leaseExpiresAt

structure Dead (sys : System) (fence : AttemptFence) : Prop where
  issued : fence ∈ sys.issued
  ended : lastIssued fence.attemptId sys.issued ≠ some fence ∨
    ∃ a ∈ sys.store.attempts, a.attemptId = fence.attemptId ∧
      (a.status ≠ .running ∨ a.leaseExpiresAt ≤ sys.clock)

def Fenced (sys : System) : Prop := Ledger sys.store.attempts sys.issued

theorem fenced_step (sys : System) (call : Call) (h : sys.Fenced) : (sys.step call).Fenced := by
  obtain ⟨fences,t,htransition,hagrees,hissued,_⟩ := sys.step_transition call
  unfold Fenced
  rw [hissued,hagrees.2.2.1]
  exact Ledger.step h htransition.attempts

theorem fenced_run (clock : Timestamp) (calls : List Call) : ((init clock).run calls).Fenced :=
  Machine.run_invariant (s := init clock) fenced_step Ledger.empty calls

variable {fence : AttemptFence} {sys : System}

theorem live_of_changes {call : Call} (h : sys.Fenced) (hfence : call.command.fence = some fence)
    (hchange : (sys.step call).store ≠ sys.store) :
    sys.Live (sys.clock + call.elapsed) fence := by
  obtain ⟨response,store,hexec⟩ := step_changes hchange
  obtain ⟨⟨a,ha⟩,-⟩ := Store.exec_fenced hfence hexec
  have hmem := mem_of_find?_eq_some ha
  obtain ⟨rfl,hrunning,hlive⟩ := AttemptRow.holds_iff.mp (find?_some ha)
  exact ⟨h.last a hmem,a,hmem,rfl,hrunning,hlive⟩

theorem Dead.spent (h : sys.Fenced) (dead : sys.Dead fence) :
    Spent sys.clock fence sys.store.attempts := by
  obtain ⟨a,ha,hid⟩ := h.owned fence dead.issued
  have hmem : fence ∈ issuedFor a.attemptId sys.issued :=
    mem_filter.mpr ⟨dead.issued,by simp [hid]⟩
  have hrange : fence.leaseEpoch ∈ range' 1 a.leaseEpoch := by
    rw [← h.epochs a ha]
    exact mem_map_of_mem hmem
  have hle : fence.leaseEpoch ≤ a.leaseEpoch := by
    have := mem_range'_1.mp hrange
    omega
  refine ⟨a,ha,hid,hle,?_⟩
  rcases dead.ended with hsuperseded | ⟨b,hb,hbid,hended⟩
  · refine Or.inl (lt_of_le_of_ne hle ?_)
    intro hepoch
    have hlast := h.last a ha
    have hfence : a.fence ∈ issuedFor a.attemptId sys.issued := mem_of_getLast? hlast
    have hunique : ((issuedFor a.attemptId sys.issued).map (·.leaseEpoch)).Nodup := by
      rw [h.epochs a ha]
      exact nodup_range'
    have hsame : fence = a.fence := inj_on_of_nodup_map hunique hmem hfence hepoch
    apply hsuperseded
    rw [hsame]
    exact hlast
  · obtain rfl := inj_on_of_nodup_map h.unique hb ha (hbid.trans hid.symm)
    exact Or.inr hended

theorem spent_step {fence : AttemptFence} (sys : System) (call : Call)
    (h : sys.Fenced ∧ Spent sys.clock fence sys.store.attempts) :
    (sys.step call).Fenced ∧ Spent (sys.step call).clock fence (sys.step call).store.attempts := by
  refine ⟨fenced_step sys call h.1,?_⟩
  obtain ⟨fences,t,htransition,hagrees,_,hclock⟩ := sys.step_transition call
  rw [hclock,hagrees.2.2.1]
  exact h.2.step h.1.unique (sys.clock_le call) htransition.attempts

theorem unchanged_of_spent {call : Call} (h : sys.Fenced)
    (spent : Spent sys.clock fence sys.store.attempts) (hfence : call.command.fence = some fence) :
    (sys.step call).store = sys.store := by
  by_contra hchange
  obtain ⟨hlast,b,hb,hbid,hrunning,hlive⟩ := live_of_changes h hfence hchange
  obtain ⟨a,ha,hid,_,hspent⟩ := spent
  obtain rfl := inj_on_of_nodup_map h.unique hb ha (hbid.trans hid.symm)
  have hrow := h.last b hb
  rw [hid,hlast] at hrow
  have hepoch : fence.leaseEpoch = b.leaseEpoch :=
    congrArg AttemptFence.leaseEpoch (Option.some.inj hrow)
  rcases hspent with hnewer | hsettled | hlapsed
  · omega
  · exact hsettled hrunning
  · exact absurd (hlapsed.trans (sys.clock_le call)) (not_le.mpr hlive)

theorem issued_epochs (h : sys.Fenced) (attemptId : AttemptId) :
    ∃ n, (issuedFor attemptId sys.issued).map (·.leaseEpoch) = range' 1 n := by
  by_cases hrow : ∃ a ∈ sys.store.attempts, a.attemptId = attemptId
  · obtain ⟨a,ha,rfl⟩ := hrow
    exact ⟨a.leaseEpoch,h.epochs a ha⟩
  · refine ⟨0,?_⟩
    rw [h.issuedFor_fresh (fun a ha hsame => hrow ⟨a,ha,hsame⟩)]
    rfl

theorem lease_fencing (clock : Timestamp) (calls : List Call) :
    (∀ call fence, call.command.fence = some fence →
      (((init clock).run calls).step call).store ≠ ((init clock).run calls).store →
      ((init clock).run calls).Live (((init clock).run calls).clock + call.elapsed) fence) ∧
    (∀ attemptId, ∃ n,
      (issuedFor attemptId ((init clock).run calls).issued).map (·.leaseEpoch) =
        range' 1 n) ∧
    (∀ fence, ((init clock).run calls).Dead fence → ∀ later call,
      call.command.fence = some fence →
      ((((init clock).run calls).run later).step call).store =
        (((init clock).run calls).run later).store) := by
  have hfenced := fenced_run clock calls
  refine ⟨?_,issued_epochs hfenced,?_⟩
  · intro call fence hfence hchange
    exact live_of_changes hfenced hfence hchange
  · intro fence dead later call hfence
    have hlater := Machine.run_invariant (s := (init clock).run calls) (@spent_step fence)
      ⟨hfenced,dead.spent hfenced⟩ later
    exact unchanged_of_spent hlater.1 hlater.2 hfence

def reclaimRun : List Call :=
  [⟨0, .createJob ⟨"demo", .null, [⟨"step", .null, 1⟩]⟩ "job" (fun _ => "operation")⟩,
    ⟨0, .claimRecovery .any ⟨"first", 1, none⟩ [] "attempt"⟩,
    ⟨1000000, .claimRecovery .any ⟨"second", 1, none⟩ [] "unused"⟩]

theorem lease_fencing_reclaimed :
    ((init 0).run reclaimRun).Live 1000000 ⟨"attempt", "second", 2⟩ ∧
      ((init 0).run reclaimRun).Dead ⟨"attempt", "first", 1⟩ ∧
      ∀ later, ((((init 0).run reclaimRun).run later).step
          ⟨0, .renewAttempt ⟨"attempt", "first", 1⟩ 60⟩).store =
        (((init 0).run reclaimRun).run later).store := by
  have dead : ((init 0).run reclaimRun).Dead ⟨"attempt","first",1⟩ :=
    ⟨by decide,Or.inl (by decide)⟩
  refine ⟨?_,dead,?_⟩
  · exact (lease_fencing 0 reclaimRun).1 ⟨0,.renewAttempt ⟨"attempt","second",2⟩ 60⟩ _ rfl
      (by decide)
  · intro later
    exact (lease_fencing 0 reclaimRun).2.2 _ dead later _ rfl

end System

end Coordinator
