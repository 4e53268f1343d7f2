import Mathlib.Data.List.Basic
import Mathlib.Data.List.Nodup
import Mathlib.Data.List.Perm.Subperm
import Mathlib.Order.WellFounded
import Mathlib.Data.Fintype.Order
import Factory.Library.Dependencies

namespace Dependencies

open List

variable {κ : Type} {graph : Graph κ} {completed : List κ}

def keys (graph : Graph κ) : List κ := graph.map Prod.fst

def DependsOn (graph : Graph κ) (dependency node : κ) : Prop :=
  ∃ dependencies, (node, dependencies) ∈ graph ∧ dependency ∈ dependencies

def Acyclic (graph : Graph κ) : Prop :=
  ∀ node, ¬ Relation.TransGen (DependsOn graph) node node

structure WellFormed (graph : Graph κ) : Prop where
  distinct : (keys graph).Nodup
  known : ∀ node ∈ graph, node.2 ⊆ keys graph
  unrepeated : ∀ node ∈ graph, node.2.Nodup

variable {node : κ × List κ} {finished : List κ}

theorem mem_keys_of_mem (h : node ∈ graph) : node.1 ∈ keys graph :=
  mem_map_of_mem h

theorem mem_keys_of_path {first last : κ} (h : Relation.TransGen (DependsOn graph) first last) :
    last ∈ keys graph := by
  cases h with
  | single step | tail _ step =>
    obtain ⟨_,known,_⟩ := step
    exact mem_keys_of_mem known

theorem not_cyclic_of_acc {r : κ → κ → Prop} {node : κ} (h : Acc r node) : ¬ r node node := by
  induction h with
  | intro node _ ih => exact fun loop => ih node loop loop

theorem Acyclic.exists_minimal (acyclic : Acyclic graph)
    (known : ∀ node ∈ graph, node.2 ⊆ keys graph) (unfinished : κ → Prop)
    (h : ∃ node ∈ graph, unfinished node.1) :
    ∃ node ∈ graph, unfinished node.1 ∧ ∀ dependency ∈ node.2, ¬ unfinished dependency := by
  let before (a b : { node // node ∈ keys graph }) : Prop :=
    Relation.TransGen (DependsOn graph) a.1 b.1
  have finite : Finite { node // node ∈ keys graph } := finite_toSet (keys graph)
  have trans : IsTrans _ before := ⟨fun _ _ _ => Relation.TransGen.trans⟩
  have irrefl : Std.Irrefl before := ⟨fun node => acyclic node.1⟩
  have wellFounded : WellFounded before := Finite.wellFounded_of_trans_of_irrefl before
  obtain ⟨start,startKnown,startOpen⟩ := h
  obtain ⟨least,leastOpen,minimal⟩ := wellFounded.has_min
    { node | unfinished node.1 } ⟨⟨start.1,mem_keys_of_mem startKnown⟩,startOpen⟩
  obtain ⟨node,nodeKnown,same⟩ := mem_map.mp least.2
  refine ⟨node,nodeKnown,same ▸ leastOpen,fun dependency needed left => ?_⟩
  have depends : DependsOn graph dependency least.1 := ⟨node.2,same ▸ nodeKnown,needed⟩
  exact minimal ⟨dependency,known node nodeKnown needed⟩ left (.single depends)

structure Closed (graph : Graph κ) (completed : List κ) : Prop where
  distinct : completed.Nodup
  known : completed ⊆ keys graph
  grounded : ∀ node ∈ completed, Acc (DependsOn graph) node

theorem Closed.length_le (h : Closed graph completed) : completed.length ≤ graph.length := by
  have bound := (h.distinct.subperm h.known).length_le
  rwa [keys,length_map] at bound

variable [DecidableEq κ]

def counts (graph : Graph κ) (completed : List κ) : List (κ × Nat) :=
  graph.map (fun node => (node.1, (node.2.filter (· ∉ completed)).length))

theorem counts_nil (graph : Graph κ) :
    counts graph [] = graph.map (fun node => (node.1, node.2.length)) := by
  simp [counts]

theorem release_fold (dependents : List κ) (distinct : dependents.Nodup)
    (remaining : List (κ × Nat)) :
    dependents.foldl (fun counts dependent =>
      counts.map (fun entry => if entry.1 = dependent then (entry.1, entry.2 - 1) else entry))
      remaining =
    remaining.map (fun entry =>
      if entry.1 ∈ dependents then (entry.1, entry.2 - 1) else entry) := by
  induction dependents generalizing remaining with
  | nil => simp
  | cons dependent rest ih =>
    obtain ⟨fresh,distinct⟩ := nodup_cons.mp distinct
    rw [foldl_cons,ih distinct,map_map]
    refine map_congr_left fun entry _ => ?_
    by_cases same : entry.1 = dependent
    · subst same
      simp [fresh]
    · simp [same]

theorem filter_done {dependencies : List κ} (unrepeated : dependencies.Nodup) {done : κ}
    (fresh : done ∉ completed) :
    (dependencies.filter (· ∉ done :: completed)).length =
      (if done ∈ dependencies then (dependencies.filter (· ∉ completed)).length - 1
        else (dependencies.filter (· ∉ completed)).length) := by
  have erased : dependencies.filter (· ∉ done :: completed) =
      (dependencies.filter (· ∉ completed)).erase done := by
    rw [(unrepeated.filter _).erase_eq_filter,filter_filter]
    refine filter_congr fun dependency _ => ?_
    by_cases same : dependency = done
    · simp [same]
    · simp [same]
  rw [erased,length_erase]
  simp [fresh]

theorem mem_ready {node : κ} :
    node ∈ ready (counts graph completed) completed ↔
      ∃ dependencies, (node, dependencies) ∈ graph ∧ node ∉ completed ∧
        dependencies ⊆ completed := by
  simp only [ready,counts,mem_map,mem_filter,Prod.exists,Prod.mk.injEq,
    decide_eq_true_eq]
  constructor
  · rintro ⟨key,count,⟨⟨key',dependencies,known,rfl,rfl⟩,fresh,done⟩,rfl⟩
    rw [length_eq_zero_iff,filter_eq_nil_iff] at done
    exact ⟨dependencies,known,fresh,fun dependency needed => by simpa using done dependency needed⟩
  · rintro ⟨dependencies,known,fresh,done⟩
    refine ⟨node,0,⟨⟨node,dependencies,known,rfl,?_⟩,fresh,rfl⟩,rfl⟩
    rw [length_eq_zero_iff,filter_eq_nil_iff]
    exact fun dependency needed => by simpa using done needed

variable {order : List κ → List κ}

def eliminate (order : List κ → List κ) (graph : Graph κ) :
    Nat → List (κ × Nat) → List κ → Option (List κ)
  | 0, _, _ => none
  | rounds + 1, remaining, completed =>
    match order (ready remaining completed) with
    | [] => some completed
    | done :: rest =>
      let next := finishAll graph (done :: rest) remaining completed
      eliminate order graph rounds next.1 next.2

theorem eliminate_more {rounds : Nat} {remaining : List (κ × Nat)} {finished : List κ}
    (h : eliminate order graph rounds remaining completed = some finished) (extra : Nat) :
    eliminate order graph (rounds + extra) remaining completed = some finished := by
  induction rounds generalizing remaining completed with
  | zero => cases h
  | succ rounds ih =>
    rw [Nat.succ_add]
    unfold eliminate at h ⊢
    cases chosen : order (ready remaining completed) with
    | nil =>
      rw [chosen] at h
      exact h
    | cons done rest =>
      rw [chosen] at h
      exact ih h

variable (wellFormed : WellFormed graph)

include wellFormed

theorem mem_dependents (known : node ∈ graph) (done : κ) :
    node.1 ∈ dependents graph done ↔ done ∈ node.2 := by
  simp only [dependents,mem_map,mem_filter,decide_eq_true_eq]
  constructor
  · rintro ⟨other,⟨otherKnown,needed⟩,same⟩
    rw [← inj_on_of_nodup_map wellFormed.distinct otherKnown known same]
    exact needed
  · intro needed
    exact ⟨node,⟨known,needed⟩,rfl⟩

theorem release_counts {done : κ} (fresh : done ∉ completed) :
    release done graph (counts graph completed) = counts graph (done :: completed) := by
  have distinct : (dependents graph done).Nodup :=
    wellFormed.distinct.sublist (filter_sublist.map Prod.fst)
  rw [release,release_fold _ distinct,counts,counts,map_map]
  refine map_congr_left fun node known => ?_
  rw [filter_done (wellFormed.unrepeated node known) fresh]
  simp only [Function.comp_apply,mem_dependents wellFormed known]
  split
  · rfl
  · rfl

theorem finishAll_counts (distinct : finished.Nodup)
    (fresh : ∀ done ∈ finished, done ∉ completed) :
    finishAll graph finished (counts graph completed) completed =
      (counts graph (finished.reverse ++ completed), finished.reverse ++ completed) := by
  induction finished generalizing completed with
  | nil => rfl
  | cons done rest ih =>
    obtain ⟨single,distinct⟩ := nodup_cons.mp distinct
    have new := fresh done mem_cons_self
    rw [finishAll,if_neg new,release_counts wellFormed new,ih distinct]
    · simp
    · intro later hit
      simp only [mem_cons,not_or]
      exact ⟨fun same => single (same ▸ hit),fresh later (mem_cons_of_mem _ hit)⟩

theorem ready_nodup :
    (ready (counts graph completed) completed).Nodup := by
  have same : (counts graph completed).map Prod.fst = keys graph := by
    rw [counts,map_map]
    rfl
  refine List.Nodup.sublist (filter_sublist.map Prod.fst) ?_
  rw [same]
  exact wellFormed.distinct

theorem Closed.finish (h : Closed graph completed)
    (perm : finished.Perm (ready (counts graph completed) completed)) :
    Closed graph (finished.reverse ++ completed) := by
  have isReady : ∀ node ∈ finished, ∃ dependencies, (node, dependencies) ∈ graph ∧
      node ∉ completed ∧ dependencies ⊆ completed :=
    fun node hit => mem_ready.mp (perm.mem_iff.mp hit)
  refine ⟨?_,fun node hit => ?_,fun node hit => ?_⟩
  · refine nodup_append.mpr ⟨?_,h.distinct,fun node hit other done same => ?_⟩
    · exact nodup_reverse.mpr (perm.nodup_iff.mpr (ready_nodup wellFormed))
    · obtain ⟨_,_,fresh,_⟩ := isReady node (mem_reverse.mp hit)
      exact fresh (same ▸ done)
  · rcases mem_append.mp hit with new | old
    · obtain ⟨_,known,_⟩ := isReady node (mem_reverse.mp new)
      exact mem_keys_of_mem known
    · exact h.known old
  · rcases mem_append.mp hit with new | old
    · obtain ⟨dependencies,known,_,done⟩ := isReady node (mem_reverse.mp new)
      refine Acc.intro node fun dependency ⟨listed,other,needed⟩ => ?_
      obtain ⟨-,rfl⟩ := Prod.mk.inj (inj_on_of_nodup_map wellFormed.distinct other known rfl)
      exact h.grounded dependency (done needed)
    · exact h.grounded node old

variable (permutes : ∀ nodes, (order nodes).Perm nodes)

include permutes

theorem complete_closed (rounds : Nat) (completed : List κ)
    (closed : Closed graph completed) (enough : graph.length < rounds + completed.length) :
    ∃ finished, complete order graph rounds (counts graph completed) completed = finished ∧
      eliminate order graph rounds (counts graph completed) completed = some finished ∧
      Closed graph finished ∧ ∀ node ∈ graph, node.1 ∉ finished →
        ∃ dependency ∈ node.2, dependency ∉ finished := by
  induction rounds generalizing completed with
  | zero =>
    have bound := closed.length_le
    omega
  | succ rounds ih =>
    have perm := permutes (ready (counts graph completed) completed)
    rw [complete,eliminate]
    cases chosen : order (ready (counts graph completed) completed) with
    | nil =>
      rw [chosen] at perm
      refine ⟨completed,rfl,rfl,closed,fun node known fresh => ?_⟩
      by_contra blocked
      have isReady : node.1 ∈ ready (counts graph completed) completed := by
        refine mem_ready.mpr ⟨node.2,known,fresh,fun dependency needed => ?_⟩
        by_contra missing
        exact blocked ⟨dependency,needed,missing⟩
      cases perm.mem_iff.mpr isReady
    | cons done rest =>
      rw [chosen] at perm
      have distinct := perm.nodup_iff.mpr (ready_nodup wellFormed)
      have fresh : ∀ node ∈ done :: rest, node ∉ completed := fun node hit => by
        obtain ⟨_,_,fresh,_⟩ := mem_ready.mp (perm.mem_iff.mp hit)
        exact fresh
      dsimp only
      rw [finishAll_counts wellFormed distinct fresh]
      refine ih _ (closed.finish wellFormed perm) ?_
      simp only [length_append,length_reverse,length_cons]
      omega

theorem isAcyclic_iff : isAcyclic order graph = true ↔ Acyclic graph := by
  have empty : Closed graph [] := ⟨nodup_nil,nofun,nofun⟩
  obtain ⟨finished,run,-,closed,stuck⟩ :=
    complete_closed wellFormed permutes (graph.length + 1) [] empty (by simp)
  rw [counts_nil] at run
  rw [isAcyclic,decide_eq_true_iff,run]
  have size : (keys graph).length = graph.length := length_map _
  constructor
  · intro whole node loop
    have everything := (closed.distinct.subperm closed.known).perm_of_length_le
      (by rw [whole,size])
    have grounded := closed.grounded node (everything.mem_iff.mpr (mem_keys_of_path loop))
    exact not_cyclic_of_acc grounded.transGen loop
  · intro acyclic
    have everything : keys graph ⊆ finished := by
      intro key known
      by_contra left
      obtain ⟨start,startKnown,rfl⟩ := mem_map.mp known
      obtain ⟨node,nodeKnown,blocked,free⟩ :=
        acyclic.exists_minimal wellFormed.known (· ∉ finished) ⟨start,startKnown,left⟩
      obtain ⟨dependency,needed,waiting⟩ := stuck node nodeKnown blocked
      exact free dependency needed waiting
    have bound := (wellFormed.distinct.subperm everything).length_le
    have limit := closed.length_le
    omega

theorem eliminate_terminates :
    ∃ finished, isAcyclic order graph = decide (finished.length = graph.length) ∧
      ∀ rounds, graph.length < rounds → eliminate order graph rounds
        (graph.map (fun node => (node.1, node.2.length))) [] = some finished := by
  have empty : Closed graph [] := ⟨nodup_nil,nofun,nofun⟩
  obtain ⟨finished,run,first,-⟩ :=
    complete_closed wellFormed permutes (graph.length + 1) [] empty (by simp)
  rw [counts_nil] at run first
  refine ⟨finished,by rw [isAcyclic,run],fun rounds enough => ?_⟩
  have later := eliminate_more first (rounds - (graph.length + 1))
  rwa [Nat.add_sub_cancel' enough] at later

end Dependencies
