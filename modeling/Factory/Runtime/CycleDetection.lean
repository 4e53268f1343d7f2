import Factory.Runtime.StageValidation

namespace Runtime

open Extension Result

variable {ε : Type}

structure DetectsCycles (order : List String → List String) (graph : Dependencies.Graph String)
    (answer : Except ε Unit) (cyclic : ε) : Prop where
  returns : ∃ completed : List String,
    answer = (if completed.length = graph.length then .ok () else .error cyclic) ∧
      ∀ rounds, graph.length < rounds → Dependencies.eliminate order graph rounds
        (graph.map (fun node => (node.1, node.2.length))) [] = some completed
  exact : answer = .ok () ↔ Dependencies.Acyclic graph

variable {order : List String → List String} {graph : Dependencies.Graph String}

theorem detectsCycles_of (permutes : ∀ ids, (order ids).Perm ids)
    (wellFormed : Dependencies.WellFormed graph) (cyclic : ε) :
    DetectsCycles order graph (ensure (Dependencies.isAcyclic order graph) cyclic) cyclic := by
  obtain ⟨completed,counted,terminates⟩ :=
    Dependencies.eliminate_terminates wellFormed permutes
  refine ⟨⟨completed,?_,terminates⟩,?_⟩
  · by_cases whole : completed.length = graph.length
    · simp [ensure,counted,whole]
    · simp [ensure,counted,whole]
  · rw [ensure_ok]
    exact Dependencies.isAcyclic_iff wellFormed permutes

theorem validateAcyclic_exact (permutes : ∀ ids, (order ids).Perm ids) :
    (∀ units : List WorkUnitArgs,
      Dependencies.WellFormed (units.map (fun unit => (unit.id, unit.dependsOn))) →
        DetectsCycles order (units.map (fun unit => (unit.id, unit.dependsOn)))
          (Extension.validateAcyclic order units)
          "Factory work unit dependencies contain a cycle") ∧
      ∀ units : List FactoryWorkUnit,
        Dependencies.WellFormed (units.map (fun unit => (unit.id, unit.dependsOn))) →
          DetectsCycles order (units.map (fun unit => (unit.id, unit.dependsOn)))
            (validateAcyclic order units)
            (.invalid "work-unit decomposition" "dependency graph contains a cycle") :=
  ⟨fun _ wellFormed => detectsCycles_of permutes wellFormed _,
    fun _ wellFormed => detectsCycles_of permutes wellFormed _⟩

def Sample.crossed : List WorkUnitArgs :=
  [⟨"a", "A", "first", ["b"]⟩, ⟨"b", "B", "second", ["a"]⟩, ⟨"c", "C", "third", []⟩]

theorem validateAcyclic_exact_crossed :
    Extension.validateAcyclic List.reverse Sample.crossed ≠ .ok () ∧
      ¬ Dependencies.Acyclic (Sample.crossed.map (fun unit => (unit.id, unit.dependsOn))) := by
  have wellFormed : Dependencies.WellFormed
      (Sample.crossed.map (fun unit => (unit.id, unit.dependsOn))) :=
    ⟨by decide,by decide,by decide⟩
  have detects := (validateAcyclic_exact List.reverse_perm).1 Sample.crossed wellFormed
  have refused : Extension.validateAcyclic List.reverse Sample.crossed ≠ .ok () := by decide +kernel
  exact ⟨refused,fun acyclic => refused (detects.exact.mpr acyclic)⟩

end Runtime
