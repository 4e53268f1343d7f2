namespace Atomic

structure Trace (σ ε α : Type) where
  states : List σ
  result : Except ε α

variable {σ ε α β : Type}

def Trace.final (start : σ) (trace : Trace σ ε α) : σ := trace.states.getLast?.getD start

end Atomic

def Atomic (σ ε α : Type) : Type := σ → Atomic.Trace σ ε α

namespace Atomic

variable {σ ε α β : Type}

def pure (a : α) : Atomic σ ε α := fun _ => ⟨[], .ok a⟩

def fail (e : ε) : Atomic σ ε α := fun _ => ⟨[], .error e⟩

def look (f : σ → α) : Atomic σ ε α := fun s => ⟨[], .ok (f s)⟩

def require (value : Option α) (e : ε) : Atomic σ ε α :=
  match value with
  | some a => pure a
  | none => fail e

def effect (f : σ → σ) : Atomic σ ε Unit := fun s => ⟨[f s], .ok ()⟩

def bind (x : Atomic σ ε α) (f : α → Atomic σ ε β) : Atomic σ ε β := fun s =>
  match (x s).result with
  | .error e => ⟨(x s).states, .error e⟩
  | .ok a =>
    ⟨(x s).states ++ (f a ((x s).final s)).states, (f a ((x s).final s)).result⟩

instance : Monad (Atomic σ ε) where
  pure := pure
  bind := bind

def run (x : Atomic σ ε α) (s : σ) : σ × Except ε α := ((x s).final s, (x s).result)

def reached (x : Atomic σ ε α) (s : σ) : List σ := s :: (x s).states

variable {s : σ} {x y : Atomic σ ε α} {f : α → Atomic σ ε β}

@[simp]
theorem run_pure (a : α) : run (Pure.pure a : Atomic σ ε α) s = (s, .ok a) := rfl

@[simp]
theorem run_fail (e : ε) : run (fail e : Atomic σ ε α) s = (s, .error e) := rfl

@[simp]
theorem run_effect (g : σ → σ) : run (effect g : Atomic σ ε Unit) s = (g s, .ok ()) := rfl

@[simp]
theorem run_look (g : σ → α) : run (look g : Atomic σ ε α) s = (s, .ok (g s)) := rfl

@[simp]
theorem run_require_some (a : α) (e : ε) :
    run (require (some a) e : Atomic σ ε α) s = (s, .ok a) := rfl

theorem require_ok {value : Option α} {e : ε} {a : α} {t : σ}
    (h : run (require value e) s = (t, .ok a)) : t = s ∧ value = some a := by
  cases value with
  | none => cases h
  | some found =>
    cases h
    exact ⟨rfl,rfl⟩

theorem run_bind : run (x >>= f) s =
    match (run x s).2 with
    | .error e => ((run x s).1, .error e)
    | .ok a => run (f a) (run x s).1 := by
  change run (bind x f) s = _
  unfold run bind
  cases h : (x s).result with
  | error | ok => simp [Trace.final]

theorem run_bind_ok {a : α} {t : σ} (h : run x s = (t, .ok a)) :
    run (x >>= f) s = run (f a) t := by
  rw [run_bind,h]

theorem run_bind_error {e : ε} {t : σ} (h : run x s = (t, .error e)) :
    run (x >>= f) s = (t, .error e) := by
  rw [run_bind,h]

theorem run_bind_eq_ok {b : β} {t : σ} (h : run (x >>= f) s = (t, .ok b)) :
    ∃ a m, run x s = (m, .ok a) ∧ run (f a) m = (t, .ok b) := by
  cases ran : run x s with
  | mk m result =>
    cases result with
    | error e =>
      rw [run_bind_error ran] at h
      cases h
    | ok a =>
      rw [run_bind_ok ran] at h
      exact ⟨a,m,rfl,h⟩

theorem run_bind_congr {g : α → Atomic σ ε β} (same : run x s = run y s)
    (rest : ∀ a t, run (f a) t = run (g a) t) : run (x >>= f) s = run (y >>= g) s := by
  rw [run_bind,run_bind,same]
  cases (run y s).2 with
  | error e => rfl
  | ok a => exact rest a _

end Atomic
