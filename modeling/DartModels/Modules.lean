import DartModels.Aliases
import DartModels.FileSystem

/-!
# Module specifiers

The specifier of an import names a source file: aliases first, then external packages, then
relative paths.  A specifier that names nothing still gives a path, and reading it fails later.

* `Modules.resolve`: the path of a specifier.
* `Modules.resolveFile`: the path with the suffix of source files, or the index file of a
  directory when only that one exists.
-/

namespace DartModels

/-- The directory of external packages. -/
def packageDirectory : String := "node_modules"

/-- What specifiers are resolved against. -/
structure Modules where
  aliases : Aliases
  cwd : Json
  root : Json
  suffix : Json
  deriving Inhabited

namespace Modules

/-- The modules of the source settings. -/
def ofSettings (attributes : Attributes) (s : SourceSettings) : Except Error Modules := do
  let aliases ← Aliases.ofJson attributes (← s.aliasTable) (.settings s)
  return ⟨aliases, s.cwd, s.root, s.moduleSuffix⟩

/-- Whether a specifier is a relative or a rooted path. -/
def isPath (specifier : List Char) : Bool :=
  specifier.head? == some '.' || specifier.head? == some '/'

/-- The directory that a relative specifier starts from: that of the importing file, or the source
directory if there is none. -/
def startDirectory (m : Modules) : Option String → Except Error String
  | some dir => if dir.isEmpty then m.cwd.asPath else .ok dir
  | none => m.cwd.asPath

/-- The path of a specifier. -/
def resolve (m : Modules) (specifier : String) (base : Option String) : Except Error String := do
  let (aliased, chars) := m.aliases.substitute specifier.toList
  let target := String.ofList chars
  if !aliased && !isPath chars then
    let root ← m.root.asPath
    return Path.normalize (Path.join (Path.join root packageDirectory) target)
  else if chars.head? == some '.' then
    return Path.normalize (Path.join (← m.startDirectory base) target)
  else
    return Path.normalize (Path.join (← m.cwd.asPath) target)

/-- The source file of a specifier. -/
def resolveFile (m : Modules) (fs : FileSystem) (specifier : String) (base : Option String) :
    Except Error String := do
  let path ← m.resolve specifier base
  match m.suffix with
  | .str suffix =>
    if path.endsWith suffix then return path
    else
      let file := path ++ suffix
      if fs.isFile file then return file
      else
        let index := Path.join path ("index" ++ suffix)
        return if fs.isFile index then index else file
  | other => wrongKind (.notSuffix other.typeName)

end Modules

end DartModels
