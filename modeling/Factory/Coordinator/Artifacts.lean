import Factory.Library.JsonPretty
import Factory.Coordinator.Store
import Factory.Coordinator.StageOutput

namespace Coordinator

open Result

inductive JobArtifactFile where
  | job
  | task
  | plan
  | execute
  | iterate
  | review
  | remediate
  | result
  | findings
  deriving DecidableEq

namespace JobArtifactFile

def fileName : JobArtifactFile → String
  | .job => "job.json"
  | .task => "task.md"
  | .plan => "plan.md"
  | .execute => "execute.md"
  | .iterate => "iterate.md"
  | .review => "review.md"
  | .remediate => "remediate.md"
  | .result => "result.md"
  | .findings => "findings.json"

def forStage (stage : String) : Option JobArtifactFile :=
  if stage = "plan" then some .plan
  else if stage = "execute" then some .execute
  else if stage = "iterate" then some .iterate
  else if stage = "review" then some .review
  else if stage = "remediate" then some .remediate
  else none

def temporaryName (file : JobArtifactFile) (uuid : String) : String :=
  "." ++ file.fileName ++ "." ++ uuid ++ ".tmp"

end JobArtifactFile

def capitalized (stage : String) : String :=
  match stage.toList with
  | [] => ""
  | first :: rest => String.ofList (first.toUpper :: rest)

def appendOutput (markdown : String) (output : CompletedStageOutput) : String :=
  let markdown := markdown ++ "\n## " ++ capitalized output.stage ++ "\n\n" ++ output.markdown
  if Text.endsWith '\n' markdown then markdown else markdown ++ "\n"

def renderJobResult (outputs : List CompletedStageOutput) : String :=
  outputs.foldl appendOutput "# Result\n"

def renderJobFindings (outputs : List CompletedStageOutput) : Option String :=
  (outputs.getLast?.bind (·.findings)).map JsonPretty.render

inductive ArtifactSide where
  | coordinator
  | projection
  deriving DecidableEq

abbrev ArtifactFiles := ArtifactSide × String → Option String

inductive FileStep where
  | replace (side : ArtifactSide) (file : JobArtifactFile) (contents : String)
  | writeTemporary (side : ArtifactSide) (file : JobArtifactFile) (contents : String)
  | rename (side : ArtifactSide) (file : JobArtifactFile) (uuid : String)
  | remove (side : ArtifactSide) (file : JobArtifactFile)
  | repair (file : JobArtifactFile) (generated : String)
  deriving DecidableEq

def projected (projects : Bool) (step : FileStep) : List FileStep :=
  if projects then [step] else []

def writeJobFile (projects : Bool) (file : JobArtifactFile) (contents : String) : List FileStep :=
  .replace .coordinator file contents :: projected projects (.replace .projection file contents)

def removeJobFile (projects : Bool) (file : JobArtifactFile) : List FileStep :=
  .remove .coordinator file :: projected projects (.remove .projection file)

namespace FileStep

def side : FileStep → ArtifactSide
  | .replace side _ _ => side
  | .writeTemporary side _ _ => side
  | .rename side _ _ => side
  | .remove side _ => side
  | .repair _ _ => .coordinator

def file : FileStep → JobArtifactFile
  | .replace _ file _ => file
  | .writeTemporary _ file _ => file
  | .rename _ file _ => file
  | .remove _ file => file
  | .repair file _ => file

def perform (projects : Bool) (uuid : String) (files : ArtifactFiles) :
    FileStep → Option (List FileStep × ArtifactFiles)
  | .replace side file contents => some ([.writeTemporary side file contents], files)
  | .writeTemporary side file contents =>
    some ([.rename side file uuid],
      Function.update files (side, file.temporaryName uuid) (some contents))
  | .rename side file uuid =>
    (files (side, file.temporaryName uuid)).map (fun contents =>
      ([], Function.update (Function.update files (side, file.temporaryName uuid) none)
        (side, file.fileName) (some contents)))
  | .remove side file => some ([], Function.update files (side, file.fileName) none)
  | .repair file generated =>
    match files (.coordinator, file.fileName) with
    | some current => some (projected projects (.replace .projection file current), files)
    | none => some (writeJobFile projects file generated, files)

def disturb (uuid : String) (left : Option String) (files : ArtifactFiles) :
    FileStep → ArtifactFiles
  | .writeTemporary side file _ => Function.update files (side, file.temporaryName uuid) left
  | .rename side file uuid => Function.update files (side, file.temporaryName uuid) left
  | _ => files

end FileStep

def stageFile (output : CompletedStageOutput) : Outcome (JobArtifactFile × String) := do
  let file ← okOr (JobArtifactFile.forStage output.stage)
    (.invalidInput ("settled artifact stage " ++ Text.debug output.stage ++ " is not recognized"))
  pure (file, output.markdown)

def stageSteps (projects : Bool) (entries : List (JobArtifactFile × String)) : List FileStep :=
  entries.flatMap (fun entry => writeJobFile projects entry.1 entry.2)

def publishSettledOutputs (projects : Bool) (outputs : List CompletedStageOutput) :
    Outcome (List FileStep) := do
  let files ← outputs.mapM stageFile
  let result := writeJobFile projects .result (renderJobResult outputs)
  match renderJobFindings outputs with
  | some findings =>
    pure (stageSteps projects files ++ writeJobFile projects .findings findings ++ result)
  | none => pure (removeJobFile projects .findings ++ stageSteps projects files ++ result)

def inventoryContents (job : JobRow) (workspace : Option WorkspaceRow) (repositoryId : String) :
    String × String :=
  let textOrNull (value : Option String) : Json.Value := (value.map .string).getD .null
  let profile := job.input.get "executionProfile"
  let metadata : List (String × Json.Value) :=
    [("jobId", .string job.jobId), ("task", textOrNull (job.input.text "task")),
      ("provider", textOrNull (profile.bind (·.text "provider"))),
      ("model", textOrNull (profile.bind (·.text "model"))),
      ("repositoryId", .string repositoryId)]
  let binding : List (String × Json.Value) := workspace.elim [] (fun workspace =>
    [("baseRef", .string workspace.baseRef), ("baseRevision", .string workspace.baseRevision)])
  let task := "# Task\n\n" ++ (job.input.text "task").getD ""
  (JsonPretty.render (.object (metadata ++ binding)),
    if Text.endsWith '\n' task then task else task ++ "\n")

def initializeJobFiles (projects : Bool) (job : JobRow) (workspace : WorkspaceRow) :
    List FileStep :=
  let contents := inventoryContents job (some workspace) workspace.repositoryId
  writeJobFile projects .job contents.1 ++ writeJobFile projects .task contents.2

def jobRepositoryId (job : JobRow) : String := (job.input.text "repositoryId").getD ""

def initializeMissingJobFiles (job : JobRow) : List FileStep :=
  let contents := inventoryContents job none (jobRepositoryId job)
  [.repair .job contents.1, .repair .task contents.2]

def hasLocalProjection (hostRepositoryId : Option String) (repositoryId : String) : Bool :=
  (Text.stripPrefix "local:" repositoryId).isSome ∧ hostRepositoryId = some repositoryId

end Coordinator
