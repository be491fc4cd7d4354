import DartModels.EntityRule
import DartModels.Environment
import DartModels.Modules

/-!
# Sources

A source is a file that was read: its imports and the classes it declares.

* `Project.load`: the source of a file, `none` if the file cannot be read.
* `Source.entities`: the classes that are entities.
-/

namespace DartModels

/-- A class of a source.  One that is made up has no declaration. -/
structure EntityClass where
  name : String
  /-- The file that declares the class. -/
  sourcePath : String
  declaration : Option Syntax.Node
  decorators : List String
  /-- What the class extends. -/
  bases : List String
  /-- What the class implements. -/
  interfaces : List String
  isEntity : Bool
  deriving Inhabited

/-- All classes that a class refers to, in the order of its declaration. -/
def EntityClass.heritage (c : EntityClass) : List String := c.bases ++ c.interfaces

/-- What tells one class from another: its file and its name. -/
def EntityClass.key (c : EntityClass) : String × String := (c.sourcePath, c.name)

/-- A file that was read. -/
structure Source where
  path : String
  /-- Local names with the files that export them. -/
  imports : List (String × String)
  /-- The classes of the file by name. -/
  classes : List (String × EntityClass)
  deriving Inhabited

/-- The classes of a source that are entities. -/
def Source.entities (s : Source) : List EntityClass :=
  (s.classes.map (·.2)).filter (·.isEntity)

/-- A table with an entry set: a name keeps its first place and takes the last value. -/
def setEntry {α : Type} (name : String) (value : α) : List (String × α) → List (String × α)
  | [] => [(name, value)]
  | (k, v) :: rest => if k = name then (k, value) :: rest else (k, v) :: setEntry name value rest

/-- Classes by their names. -/
def nameTable (classes : List EntityClass) : List (String × EntityClass) :=
  classes.foldl (fun table c => setEntry c.name c table) []

/-- A source tree with everything that its entities are found by. -/
structure Project where
  /-- The parser of the files. -/
  reader : Syntax.Reader
  files : FileSystem
  settings : SourceSettings
  rule : EntityRule
  modules : Modules
  deriving Inhabited

namespace Project

/-- The project of the settings on a file system. -/
def ofSettings (env : Environment) (files : FileSystem) (s : SourceSettings) :
    Except Error Project := do
  let rule ← EntityRule.ofSettings s
  let modules ← Modules.ofSettings env.attributes s
  return ⟨env.reader, files, s, rule, modules⟩

/-- The text of a file, `none` if it is not there or not UTF-8. -/
def readText (p : Project) (path : String) : Except Error (Option (List Char)) :=
  match p.files.readFile path with
  | .ok bytes =>
    match Utf8.decode bytes with
    | .ok text => .ok (some (Utf8.universalLines text))
    | .error _ => .ok none
  | .error .nulInPath => .error .nulInPath
  | .error _ => .ok none

/-- The imported names of a tree with the files that export them. -/
def importTable (p : Project) (tree : Syntax.Node) (dir : String) :
    Except Error (List (String × String)) :=
  tree.imports.foldlM (fun table (specifier, names) => do
    let file ← p.modules.resolveFile p.files specifier (some dir)
    return names.foldl (fun table name => setEntry name file table) table) []

/-- A declared class. -/
def entityClass (p : Project) (path : String) (cls : Syntax.Node)
    (around : Syntax.Surroundings) : Except Error EntityClass := do
  let (bases, interfaces) ← cls.heritageNames
  let decorators := cls.decoratorNames around
  return ⟨cls.className, path, some cls, decorators, bases, interfaces,
    p.rule.approves decorators bases interfaces⟩

/-- The classes of a tree by name. -/
def classTable (p : Project) (path : String) (tree : Syntax.Node) :
    Except Error (List (String × EntityClass)) := do
  return nameTable (← tree.classes.mapM fun (cls, around) => p.entityClass path cls around)

/-- The source of a file, `none` if the file cannot be read. -/
def load (p : Project) (path : String) : Except Error (Option Source) := do
  match ← p.readText path with
  | none => return none
  | some text =>
    let tree := p.reader.read text
    let imports ← p.importTable tree (Path.dirname path)
    return some ⟨path, imports, ← p.classTable path tree⟩

end Project

end DartModels
