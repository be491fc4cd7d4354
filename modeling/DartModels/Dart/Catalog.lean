import DartModels.Entity
import DartModels.NameFormat
import DartModels.Path

/-!
# The entities of a run

Any field may refer to any entity of the run, so models are written against the whole list.  The
entities that a model refers to are recorded while its body is written, each name once and in the
order in which they are met; the model imports them.

* `Catalog.find?`: the first entity with a name.
* `Catalog.findByPath?`: an entity declared in a file, the one with a given name if there is one.
* `Catalog.relation`: the entity that a type refers to, recorded.
-/

namespace DartModels

/-- All entities of a run with the format of their class names. -/
structure Catalog where
  entities : List ModelEntity
  format : NameFormat
  deriving Inhabited

/-- Writing one model: the entities it refers to are recorded, and a name may have no class. -/
abbrev Rendering := ExceptT Error (StateM (List ModelEntity))

namespace Catalog

/-- The first entity with a name. -/
def find? (c : Catalog) (name : String) : Option ModelEntity :=
  c.entities.find? fun e => e.name == name

/-- An entity declared in a file: the one with the name, else the first. -/
def findByPath? (c : Catalog) (path : String) (name : Option String) : Option ModelEntity :=
  let file := Path.normalize path
  let candidates := c.entities.filter fun e => Path.normalize e.path == file
  match candidates.find? fun e => some e.name == name with
  | some e => some e
  | none => candidates.head?

/-- The class name of an entity. -/
def className (c : Catalog) (e : ModelEntity) : Except Error String := c.format.apply e.name

/-- The recorded entities with one more, unless its name is there already. -/
def record (e : ModelEntity) (met : List ModelEntity) : List ModelEntity :=
  if met.any fun m => m.name == e.name then met else met ++ [e]

/-- The entity that a type refers to, recorded. -/
def relation (c : Catalog) (t : Option TypeDescriptor) : Rendering (Option ModelEntity) := do
  match t with
  | some (.mk .reference name _ _ _ _ _ _) =>
    match c.find? name with
    | some e =>
      modify (record e)
      return some e
    | none => return none
  | _ => return none

end Catalog

end DartModels
