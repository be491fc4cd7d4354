import DartModels.Ancestry
import DartModels.Entity
import DartModels.TypeReduction

/-!
# Fields

The fields of an entity are its visible properties, then those of its ancestors, nearest first.  The
first property of a name wins.

* `SourceSettings.exposes`: whether a property with given decorators is visible.
* `Project.fields`: the fields of a class.
-/

namespace DartModels

open Syntax

/-- Whether a property with given decorators is visible. -/
def SourceSettings.exposes (s : SourceSettings) (decorators : List String) : Bool :=
  if decorators.isEmpty then !s.requireFieldDecorator.truthy
  else !decorators.any fun name => s.excludeDecorator.same (.str name)

namespace Project

/-- A property of the class `declaring` as a field, if it is visible. -/
def field? (p : Project) (declaring : EntityClass) (source : Source) (property : Node) :
    Except Error (Option Field) := do
  if p.settings.exposes (property.decorators.map Node.decoratorName) then
    let origin : Origin := ⟨p.files, p.settings.cwd, source.imports⟩
    let type ← origin.describe? property.propertyType?
    return some ⟨property.propertyName, type, declaring.name⟩
  else return none

/-- The fields after one more, unless its name is there already. -/
def addField (fields : List Field) (f : Field) : List Field :=
  if fields.any fun g => g.name == f.name then fields else fields ++ [f]

/-- The fields after one more property of the class `declaring`, if it is visible. -/
def addProperty (p : Project) (declaring : EntityClass) (source : Source) (fields : List Field)
    (property : Node) : Except Error (List Field) := do
  match ← p.field? declaring source property with
  | some f => return addField fields f
  | none => return fields

/-- The fields after the properties of one more class. -/
def addClass (p : Project) (fields : List Field) (declaring : EntityClass) :
    Loading (List Field) := do
  match ← p.importSource declaring.sourcePath with
  | none => return fields
  | some source =>
    match declaring.declaration with
    | none => throw (.kind (.noAttribute "NoneType" "child_by_field_name"))
    | some cls => liftM (cls.properties.foldlM (p.addProperty declaring source) fields)

/-- The fields of a class. -/
def fields (p : Project) (c : EntityClass) : Loading (List Field) := do
  let classes := c :: (← p.ancestors c)
  classes.foldlM p.addClass []

end Project

end DartModels
