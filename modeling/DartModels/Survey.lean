import DartModels.Fields
import DartModels.Progress

/-!
# Surveys

A survey resolves the entities of the files of a source tree.  A file that cannot be read or
resolved is reported and does not stop the others.

* `Project.discover`: the entity files below the source directory.
* `Project.parseFile`: the entities of one file.
* `Project.surveyIn`: the survey of files with its tasks in a given order.
* `Project.survey`: the survey of all entity files.
-/

namespace DartModels

/-- A file that failed. -/
structure FailedFile where
  path : String
  error : Error
  deriving Inhabited

/-- The entities in the order of the files, and the failures sorted by path. -/
structure SurveyResult where
  entities : List SourceEntity
  failed : List FailedFile
  deriving Inhabited

namespace Project

/-- The entity files at any depth below the source directory, relative to it and in order. -/
def discover (p : Project) : Except Error (List String) := do
  let dir := Path.tidy (← p.settings.cwd.asPath)
  p.files.glob dir ("*" ++ p.settings.ext.text)

/-- The entities of one file, whose path is relative to the source directory. -/
def parseFile (p : Project) (file : String) : Loading (List SourceEntity) := do
  let path := Path.join (← liftM p.settings.cwd.asPath) file
  match ← p.importSource path with
  | none => throw (.missingSource path)
  | some source =>
    source.entities.mapM fun c => do return ⟨file, c.name, ← p.fields c⟩

/-- A failure of a file as it is reported. -/
def failure (p : Project) (file : String) : Error → Except Error FailedFile
  | .missingSource path => .ok ⟨path, .missingSource path⟩
  | e => do
    let path := Path.join (← p.settings.cwd.asPath) file
    return ⟨path, .unresolvedSource path e.message⟩

/-- The outcome of one file. -/
abbrev FileOutcome := String × Except FailedFile (List SourceEntity)

/-- Resolves files one after another.  A failure that cannot be reported ends the work. -/
def parseFiles (p : Project) : List String → StateM SourceCache (List FileOutcome × Option Error)
  | [] => return ([], none)
  | file :: rest => do
    match ← ExceptT.run (p.parseFile file) with
    | .ok entities =>
      let (outcomes, fault) ← parseFiles p rest
      return ((file, .ok entities) :: outcomes, fault)
    | .error e =>
      match p.failure file e with
      | .ok failed =>
        let (outcomes, fault) ← parseFiles p rest
        return ((file, .error failed) :: outcomes, fault)
      | .error fault => return ([], some fault)

/-- The entities of an outcome. -/
def entitiesOf : Except FailedFile (List SourceEntity) → List SourceEntity
  | .ok entities => entities
  | .error _ => []

/-- The result of outcomes, whatever the order of their tasks was. -/
def collect (files : List String) (outcomes : List FileOutcome) : SurveyResult :=
  let entities := files.flatMap fun file => ((outcomes.lookup file).map entitiesOf).getD []
  let failed := outcomes.filterMap fun o =>
    match o.2 with
    | .error f => some f
    | .ok _ => none
  ⟨entities, failed.mergeSort fun a b => !decide (b.path < a.path)⟩

/-- The names that are reported when a file is finished. -/
def reportedName (o : FileOutcome) : String :=
  ", ".intercalate ((entitiesOf o.2).map (·.name))

/-- Resolves files, the tasks in the order `order` of their places. -/
def surveyIn (p : Project) (order : List Nat) (files : List String) :
    StateM SourceCache (StageOutcome SurveyResult) := do
  let started := ProgressEvent.started files.length files
  match checkWorkers p.settings.workers with
  | .error e => return ⟨.error e, [started]⟩
  | .ok () =>
    let (outcomes, fault) ← p.parseFiles (order.filterMap fun i => files[i]?)
    let progress := started :: Progress.counted (outcomes.map reportedName)
    match fault with
    | some e => return ⟨.error e, progress⟩
    | none => return ⟨.ok (collect files outcomes), progress⟩

/-- Resolves the entity files of the source tree, the tasks in the order that `order` has for their
number. -/
def survey (p : Project) (order : Nat → List Nat) : StateM SourceCache (StageOutcome SurveyResult) :=
  match p.discover with
  | .error e => return ⟨.error e, []⟩
  | .ok files => p.surveyIn (order files.length) files

end Project

end DartModels
