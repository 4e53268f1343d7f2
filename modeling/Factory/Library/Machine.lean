namespace Machine

variable {σ ι : Type}

def run (step : σ → ι → σ) (s : σ) (inputs : List ι) : σ := inputs.foldl step s

variable {step : σ → ι → σ} {s : σ}

theorem run_append (s : σ) (xs ys : List ι) :
    run step s (xs ++ ys) = run step (run step s xs) ys := by
  simp only [run,List.foldl_append]

theorem run_invariant {invariant : σ → Prop}
    (preserved : ∀ s i, invariant s → invariant (step s i)) (start : invariant s)
    (inputs : List ι) : invariant (run step s inputs) := by
  induction inputs generalizing s with
  | nil => exact start
  | cons i rest ih => exact ih (preserved s i start)

def Along (step : σ → ι → σ) (allowed : σ → ι → Prop) : σ → List ι → Prop
  | _, [] => True
  | s, i :: rest => allowed s i ∧ Along step allowed (step s i) rest

variable {allowed : σ → ι → Prop}

instance Along.decidable [∀ s i, Decidable (allowed s i)] :
    ∀ s inputs, Decidable (Along step allowed s inputs)
  | _, [] => isTrue trivial
  | s, i :: rest =>
    have := Along.decidable (step s i) rest
    inferInstanceAs (Decidable (allowed s i ∧ Along step allowed (step s i) rest))

theorem along_append {xs ys : List ι} :
    Along step allowed s (xs ++ ys) ↔
      Along step allowed s xs ∧ Along step allowed (run step s xs) ys := by
  induction xs generalizing s with
  | nil => simp [Along,run]
  | cons x rest ih =>
    simp only [List.cons_append,Along,ih,and_assoc]
    rfl

theorem along_invariant {invariant : σ → Prop}
    (preserved : ∀ s i, allowed s i → invariant s → invariant (step s i)) (start : invariant s)
    {inputs : List ι} (along : Along step allowed s inputs) : invariant (run step s inputs) := by
  induction inputs generalizing s with
  | nil => exact start
  | cons i rest ih => exact ih (preserved s i along.1 start) along.2

theorem along_true (inputs : List ι) : Along step (fun _ _ => True) s inputs := by
  induction inputs generalizing s with
  | nil => trivial
  | cons i rest ih => exact ⟨trivial,ih⟩

theorem along_of_invariant {invariant : σ → Prop} {holds : σ → ι → Prop}
    (preserved : ∀ s i, allowed s i → invariant s → invariant (step s i))
    (implies : ∀ s i, allowed s i → invariant s → holds s i) (start : invariant s)
    {inputs : List ι} (along : Along step allowed s inputs) : Along step holds s inputs := by
  induction inputs generalizing s with
  | nil => trivial
  | cons i rest ih =>
    exact ⟨implies s i along.1 start,ih (preserved s i along.1 start) along.2⟩

end Machine
