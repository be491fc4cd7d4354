import DartModels.AtomicWrite
import DartModels.Dart.ModelText
import DartModels.Progress

/-!
# Generation

Gives every entity its target file, then writes one model after another.  A model that fails is
reported and does not stop the others.

* `Generator.ofSettings`: the name formats, checked before any work.
* `Generator.target`: the file of an entity's model.
* `Generator.generateIn`: the run with its tasks in a given order.
-/

namespace DartModels

/-- What models are written with. -/
structure Generator where
  settings : ModelSettings
  filenames : NameFormat
  classNames : NameFormat
  deriving Inhabited

/-- A model that was written, with the entities it refers to. -/
structure WrittenModel where
  entity : ModelEntity
  lazyImports : List ModelEntity
  deriving Inhabited

/-- A model that failed. -/
structure FailedModel where
  target : String
  error : Error
  deriving Inhabited

/-- The models of a run in the order of the entities, and the failures sorted by target. -/
structure GenerationResult where
  written : List WrittenModel
  failed : List FailedModel
  deriving Inhabited

namespace Generator

/-- The generator of the settings. -/
def ofSettings (library : Library) (s : ModelSettings) : Except Error Generator := do
  let filename := (← s.formatsFor "filename").filename
  let filenames ← NameFormat.ofJson library filename NameFormat.defaultFilename
  let name := (← s.formatsFor "name").name
  let classNames ← NameFormat.ofJson library name NameFormat.defaultName
  return ⟨s, filenames, classNames⟩

/-- The file of an entity's model.  It lies in the output directory where the source lies in the
source directory. -/
def target (g : Generator) (e : SourceEntity) : Except Error String := do
  let filename ← g.filenames.apply e.name
  let out ← g.settings.out.asPath
  return Path.normalize (Path.join (Path.join out (Path.dirname e.path)) filename)

/-- All entities with their target files. -/
def decorate (g : Generator) (entities : List SourceEntity) : Except Error (List ModelEntity) :=
  entities.mapM fun e => do return ⟨e.path, e.name, e.fields, ← g.target e⟩

/-- The catalog of entities with target files. -/
def catalog (g : Generator) (entities : List ModelEntity) : Catalog := ⟨entities, g.classNames⟩

/-- Writes the model of one entity. -/
def writeEntity (g : Generator) (c : Catalog) (e : ModelEntity) (fs : FileSystem) :
    Except FailedModel WrittenModel × FileSystem :=
  let failed (error : Error) : FailedModel :=
    ⟨e.target, .emission e.name e.target error.message⟩
  match ((c.emit g.settings fs e).run).run [] with
  | (.error error, _) => (.error (failed error), fs)
  | (.ok text, met) =>
    match (AtomicWrite.write e.target text true).exec fs with
    | (.error error, fs) => (.error (failed error), fs)
    | (.ok (), fs) => (.ok ⟨e, met⟩, fs)

/-- Writes models one after another, each with the place of its entity. -/
def writeAll (g : Generator) (c : Catalog) :
    List (Nat × ModelEntity) → FileSystem →
      List (Nat × Except FailedModel WrittenModel) × FileSystem
  | [], fs => ([], fs)
  | (i, e) :: rest, fs =>
    let (outcome, fs) := g.writeEntity c e fs
    let (outcomes, fs) := writeAll g c rest fs
    ((i, outcome) :: outcomes, fs)

/-- The result of outcomes, whatever the order of their tasks was. -/
def collect (count : Nat) (outcomes : List (Nat × Except FailedModel WrittenModel)) :
    GenerationResult :=
  let written := (List.range count).filterMap fun i =>
    match outcomes.lookup i with
    | some (.ok w) => some w
    | _ => none
  let failed := outcomes.filterMap fun o =>
    match o.2 with
    | .error f => some f
    | .ok _ => none
  ⟨written, failed.mergeSort fun a b => !decide (b.target < a.target)⟩

/-- Writes a model for every entity, the tasks in the order `order` of their places. -/
def generateIn (g : Generator) (order : List Nat) (entities : List SourceEntity)
    (fs : FileSystem) : StageOutcome GenerationResult × FileSystem :=
  match g.decorate entities with
  | .error e => (⟨.error e, []⟩, fs)
  | .ok decorated =>
    let started := ProgressEvent.started decorated.length (decorated.map (·.name))
    match checkWorkers g.settings.workers with
    | .error e => (⟨.error e, [started]⟩, fs)
    | .ok () =>
      let tasks := order.filterMap fun i => (decorated[i]?).map (i, ·)
      let (outcomes, fs) := g.writeAll (g.catalog decorated) tasks fs
      (⟨.ok (collect decorated.length outcomes),
        started :: Progress.counted (tasks.map (·.2.name))⟩, fs)

end Generator

end DartModels
