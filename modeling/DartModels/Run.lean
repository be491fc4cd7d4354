import DartModels.Generation
import DartModels.OptionsFile
import DartModels.Survey

/-!
# Runs

A run surveys a source tree and then writes the models of the entities that were found.  Both
stages are set up before a file is read, so unusable settings end the run early.  The tasks of a
stage are done side by side; the order in which they come to be done is a parameter.

* `Schedule`: an order for the tasks of each stage.
* `Settings.run`: the run of settings on a file system.
* `RunResult.ok`: whether no file and no model failed.
-/

namespace DartModels

/-- The orders in which the tasks of both stages are done, by their number.  Each task is done once. -/
structure Schedule where
  survey : Nat → List Nat
  generation : Nat → List Nat
  survey_perm : ∀ n, (survey n).Perm (List.range n)
  generation_perm : ∀ n, (generation n).Perm (List.range n)

/-- The schedule of one worker: every task in its turn. -/
def Schedule.inTurn : Schedule := ⟨List.range, List.range, fun _ => .refl _, fun _ => .refl _⟩

instance : Inhabited Schedule := ⟨.inTurn⟩

/-- The results of both stages. -/
structure RunResult where
  survey : SurveyResult
  generation : GenerationResult
  deriving Inhabited

/-- Whether no file and no model failed. -/
def RunResult.ok (r : RunResult) : Bool := r.survey.failed.isEmpty && r.generation.failed.isEmpty

/-- All failures, those of files first. -/
def RunResult.errors (r : RunResult) : List Error :=
  r.survey.failed.map (·.error) ++ r.generation.failed.map (·.error)

/-- What a run leaves behind.  A stage that was not reached has reported nothing. -/
structure RunOutcome where
  result : Except Error RunResult
  surveyed : List ProgressEvent
  generated : List ProgressEvent
  files : FileSystem

namespace Settings

/-- The project and the generator of settings. -/
def stages (env : Environment) (s : Settings) (fs : FileSystem) :
    Except Error (Project × Generator) := do
  let project ← Project.ofSettings env fs s.source
  let generator ← Generator.ofSettings env.library s.model
  return (project, generator)

/-- Surveys the source tree of the settings and writes the models. -/
def run (env : Environment) (schedule : Schedule) (s : Settings) (fs : FileSystem) : RunOutcome :=
  match s.stages env fs with
  | .error e => ⟨.error e, [], [], fs⟩
  | .ok (project, generator) =>
    let survey : StageOutcome SurveyResult := ((project.survey schedule.survey).run []).1
    match survey.result with
    | .error e => ⟨.error e, survey.progress, [], fs⟩
    | .ok found =>
      let order := schedule.generation found.entities.length
      let (generation, fs) := generator.generateIn order found.entities fs
      ⟨generation.result.map fun written => ⟨found, written⟩, survey.progress,
        generation.progress, fs⟩

end Settings

end DartModels
