import DartModels.SourceCache

/-!
# Ancestors

A class refers to others by the names in its heritage clauses, each looked up in the file that the
name is imported from, or in the class's own file.  A name that leads nowhere is left out, and a
class that was met before is not visited again, so cycles end.

* `Project.findClass`: the class that a name refers to.
* `Project.ancestors`: all ancestors of a class, each reference followed by its own ancestors.
-/

namespace DartModels

namespace Project

/-- The class that a name in a class refers to. -/
def findClass (p : Project) (c : EntityClass) (name : String) : Loading (Option EntityClass) := do
  match ← p.importSource c.sourcePath with
  | none => return none
  | some source =>
    let file := (source.imports.lookup name).getD source.path
    match ← p.importSource file with
    | none => return none
    | some target => return target.classes.lookup name

/-- The classes met so far. -/
abbrev Visited := List (String × String)

/-- One more class after the ancestors found so far and, by `deeper`, its own ancestors, unless it
was met before. -/
def meet (deeper : EntityClass → Visited → Loading (List EntityClass × Visited))
    (state : List EntityClass × Visited) (parent : EntityClass) :
    Loading (List EntityClass × Visited) := do
  if state.2.contains parent.key then return state
  else
    let (above, visited) ← deeper parent (parent.key :: state.2)
    return (state.1 ++ parent :: above, visited)

/-- The class that `name` refers to after the ancestors found so far, if there is one. -/
def visit (p : Project) (c : EntityClass)
    (deeper : EntityClass → Visited → Loading (List EntityClass × Visited))
    (state : List EntityClass × Visited) (name : String) :
    Loading (List EntityClass × Visited) := do
  match ← p.findClass c name with
  | none => return state
  | some parent => meet deeper state parent

/-- The ancestors of a class that were not met before, at most `fuel` references deep. -/
def ancestorsFrom (p : Project) : Nat → EntityClass → Visited →
    Loading (List EntityClass × Visited)
  | 0, _, visited => return ([], visited)
  | fuel + 1, c, visited => c.heritage.foldlM (p.visit c (ancestorsFrom p fuel)) ([], visited)

/-- The classes of a source that was loaded. -/
def loadedClasses : LoadOutcome → Nat
  | .ok (some s) => s.classes.length
  | _ => 0

/-- A bound on the classes of what stands in a file system at one place. -/
def entrySize (p : Project) : Entry → Nat
  | .file content =>
    match Utf8.decode content with
    | .ok text => p.reader.classBound (Utf8.universalLines text)
    | .error _ => 0
  | .directory => 0

/-- More than the number of classes in the sources that are cached or can be loaded.  A file has at
most two absolute paths. -/
def classBound (p : Project) (cache : SourceCache) : Nat :=
  let loaded := cache.foldr (fun entry n => loadedClasses entry.2 + n) 0
  let files := p.files.entries.foldr (fun entry n => p.entrySize entry.2 + n) 0
  loaded + 2 * files + 1

/-- All ancestors of a class. -/
def ancestors (p : Project) (c : EntityClass) : Loading (List EntityClass) := do
  let fuel := p.classBound (← get)
  return (← p.ancestorsFrom fuel c [c.key]).1

end Project

end DartModels
