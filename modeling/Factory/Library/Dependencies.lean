namespace Dependencies

variable {κ : Type} [DecidableEq κ]

abbrev Graph (κ : Type) := List (κ × List κ)

def dependents (graph : Graph κ) (done : κ) : List κ :=
  (graph.filter (fun node => done ∈ node.2)).map Prod.fst

def release (done : κ) (graph : Graph κ) (remaining : List (κ × Nat)) : List (κ × Nat) :=
  (dependents graph done).foldl
    (fun counts dependent =>
      counts.map (fun entry => if entry.1 = dependent then (entry.1, entry.2 - 1) else entry))
    remaining

def ready (remaining : List (κ × Nat)) (completed : List κ) : List κ :=
  (remaining.filter (fun entry => entry.1 ∉ completed ∧ entry.2 = 0)).map Prod.fst

def finishAll (graph : Graph κ) :
    List κ → List (κ × Nat) → List κ → List (κ × Nat) × List κ
  | [], remaining, completed => (remaining, completed)
  | done :: rest, remaining, completed =>
    finishAll graph rest (release done graph remaining)
      (if done ∈ completed then completed else done :: completed)

def complete (order : List κ → List κ) (graph : Graph κ) :
    Nat → List (κ × Nat) → List κ → List κ
  | 0, _, completed => completed
  | rounds + 1, remaining, completed =>
    match order (ready remaining completed) with
    | [] => completed
    | done :: rest =>
      let next := finishAll graph (done :: rest) remaining completed
      complete order graph rounds next.1 next.2

def isAcyclic (order : List κ → List κ) (graph : Graph κ) : Bool :=
  (complete order graph (graph.length + 1)
    (graph.map (fun node => (node.1, node.2.length))) []).length = graph.length

end Dependencies
