import DartModels.Dart.Catalog
import DartModels.FileSystem
import DartModels.Settings

/-!
# Headers and imports of a model

Lines before a model: the header lines of the settings, the imports of the settings, the files
that declare the types of its fields, and the entities its body refers to.

* `Dart.importStatement`: the import of a file from the file of a model.
* `Catalog.headerLines`: all lines, each once and in the order of first appearance.
-/

namespace DartModels

namespace Dart

/-- The import of the file `target` from a model. -/
def importStatement (fs : FileSystem) (e : ModelEntity) (target : String) : Except Error String :=
  if target.isEmpty then .error .emptyPath
  else
    let way := fs.relative target (Path.dirname e.target)
    .ok ("import '" ++ Path.tidy way ++ "';")

/-- The files that the settings import everywhere. -/
def configuredTargets (s : ModelSettings) : Except Error (List String) := do
  (← s.importItems).mapM fun item => do
    let out ← s.out.asPath
    return Path.normalize (Path.join out (← item.joinable))

/-- The lines kept so far, last first, with one more unless it is there already.  Arrays and objects
cannot be compared. -/
def addLine (kept : List Json) (line : Json) : Except Error (List Json) :=
  match line with
  | .arr _ | .obj _ => wrongKind (.unhashable line.typeName)
  | _ => .ok (if kept.any fun k => k.same line then kept else line :: kept)

/-- Lines without repetitions, each at its first place. -/
def distinct (lines : List Json) : Except Error (List Json) := do
  let kept ← lines.foldlM addLine []
  return kept.reverse

end Dart

namespace Catalog

open Dart

/-- The files of the entities that declare the types of a model's fields. -/
def fieldTargets (c : Catalog) (e : ModelEntity) : List String :=
  e.fields.filterMap fun f =>
    match f.type.relativePath with
    | some path =>
      if path.isEmpty then none else (c.findByPath? path (some f.type.name)).map (·.target)
    | none => none

/-- The lines before a model that refers to the entities `met`. -/
def headerLines (c : Catalog) (s : ModelSettings) (fs : FileSystem) (e : ModelEntity)
    (met : List ModelEntity) : Except Error (List Json) := do
  let headers ← s.headerItems
  let configured ← configuredTargets s
  let targets := (configured ++ c.fieldTargets e ++ met.map (·.target)).filter (· != e.target)
  let statements ← targets.mapM (importStatement fs e)
  distinct (headers ++ statements.map .str)

end Catalog

end DartModels
