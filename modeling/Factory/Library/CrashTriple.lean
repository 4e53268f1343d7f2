import Factory.Library.Atomic

namespace Atomic

open List

variable {σ ε α β : Type} {s t : σ} {x y : Atomic σ ε α} {f : α → Atomic σ ε β}

theorem run_mem_reached (x : Atomic σ ε α) (s : σ) : (x.run s).1 ∈ x.reached s := by
  unfold run reached Trace.final
  cases last : (x s).states.getLast? with
  | none => exact mem_cons_self
  | some t => exact mem_cons_of_mem _ (mem_of_getLast? last)

theorem reached_bind_error {e : ε} (ran : x.run s = (t, .error e)) :
    (x >>= f).reached s = x.reached s := by
  obtain ⟨-,result⟩ := Prod.mk.inj ran
  change s :: (bind x f s).states = _
  rw [bind,result]
  rfl

theorem reached_bind_ok {a : α} (ran : x.run s = (t, .ok a)) :
    (x >>= f).reached s = x.reached s ++ (f a t).states := by
  obtain ⟨rfl,result⟩ := Prod.mk.inj ran
  change s :: (bind x f s).states = _
  rw [bind,result]
  rfl

def Triple (bound : Nat) (pre : σ → Prop) (x : Atomic σ ε α) (post : α → σ → Prop)
    (crash : σ → Prop) : Prop :=
  ∀ s, pre s → (∀ i ≤ bound, ∀ t, (x.reached s)[i]? = some t → crash t) ∧
    ∀ a t, x.run s = (t, .ok a) → post a t

namespace Triple

variable {bound : Nat} {pre pre' crash crash' : σ → Prop} {post post' : α → σ → Prop}
  {goal : β → σ → Prop}

theorem pure {a : α} (h : ∀ s, pre s → crash s ∧ post a s) :
    Triple bound pre (Pure.pure a : Atomic σ ε α) post crash := by
  intro s holds
  refine ⟨fun i _ t hit => ?_,fun b t ran => ?_⟩
  · obtain rfl : t = s := mem_singleton.mp (mem_of_getElem? hit)
    exact (h t holds).1
  · cases ran
    exact (h s holds).2

theorem fail {e : ε} (h : ∀ s, pre s → crash s) :
    Triple bound pre (Atomic.fail e : Atomic σ ε α) post crash := by
  intro s holds
  refine ⟨fun i _ t hit => ?_,fun b t ran => ?_⟩
  · obtain rfl : t = s := mem_singleton.mp (mem_of_getElem? hit)
    exact h t holds
  · cases ran

theorem look {g : σ → α} (h : ∀ s, pre s → crash s) :
    Triple bound pre (Atomic.look g : Atomic σ ε α) (fun a s => a = g s ∧ pre s) crash := by
  intro s holds
  refine ⟨fun i _ t hit => ?_,fun b t ran => ?_⟩
  · obtain rfl : t = s := mem_singleton.mp (mem_of_getElem? hit)
    exact h t holds
  · cases ran
    exact ⟨rfl,holds⟩

theorem effect {g : σ → σ} {post : Unit → σ → Prop}
    (h : ∀ s, pre s → crash s ∧ crash (g s) ∧ post () (g s)) :
    Triple bound pre (Atomic.effect g : Atomic σ ε Unit) post crash := by
  intro s holds
  refine ⟨fun i _ t hit => ?_,fun b t ran => ?_⟩
  · rcases mem_cons.mp (mem_of_getElem? hit) with rfl | hit
    · exact (h t holds).1
    · obtain rfl : t = g s := mem_singleton.mp hit
      exact (h s holds).2.1
  · cases ran
    exact (h s holds).2.2

theorem bind (first : Triple bound pre x post crash)
    (rest : ∀ a, Triple bound (post a) (f a) goal crash) :
    Triple bound pre (x >>= f) goal crash := by
  intro s holds
  obtain ⟨safe,done⟩ := first s holds
  refine ⟨fun i le t hit => ?_,fun b t ran => ?_⟩
  · cases ran : x.run s with
    | mk m result =>
      cases result with
      | error e =>
        rw [reached_bind_error ran] at hit
        exact safe i le t hit
      | ok a =>
        rw [reached_bind_ok ran] at hit
        rcases Nat.lt_or_ge i (x.reached s).length with early | late
        · rw [getElem?_append_left early] at hit
          exact safe i le t hit
        · rw [getElem?_append_right late] at hit
          have shift : i - (x.reached s).length + 1 ≤ i := by
            simp only [reached,length_cons] at late ⊢
            omega
          exact (rest a m (done a m ran)).1 _ (Nat.le_trans shift le) t hit
  · obtain ⟨a,m,ran,after⟩ := run_bind_eq_ok ran
    exact (rest a m (done a m ran)).2 b t after

theorem weaken (h : Triple bound pre x post crash) (before : ∀ s, pre' s → pre s)
    (after : ∀ a s, post a s → post' a s) (interrupted : ∀ s, crash s → crash' s) :
    Triple bound pre' x post' crash' := by
  intro s holds
  obtain ⟨safe,done⟩ := h s (before s holds)
  exact ⟨fun i le t hit => interrupted t (safe i le t hit),fun a t ran => after a t (done a t ran)⟩

theorem ignore {known : σ → Prop} (h : Triple bound pre x post crash) :
    Triple bound (fun s => known s ∧ pre s) x post crash :=
  fun s holds => h s holds.2

theorem ite {c : Prop} [Decidable c] (yes : c → Triple bound pre x post crash)
    (no : ¬ c → Triple bound pre y post crash) :
    Triple bound pre (if c then x else y) post crash := by
  split
  · next holds => exact yes holds
  · next fails => exact no fails

end Triple

end Atomic
