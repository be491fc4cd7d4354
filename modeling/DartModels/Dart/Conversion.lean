import DartModels.Dart.TypeName

/-!
# Conversions from and to JSON

A date, an entity, a list of dates or a list of entities is converted; every other field is used
as it is.

* `Catalog.toJson`: the expression that serialises a field.
* `Catalog.fromJson`: the expression that rebuilds it.
-/

namespace DartModels

namespace Dart

/-- The names of the entities of a list inside a closure. -/
def itemName (e : ModelEntity) : String := Casing.camel.apply e.name

/-- The value of a field in a JSON map. -/
def jsonField (name : String) : String := "json['" ++ name ++ "']"

/-- A JSON value as a list. -/
def jsonList (value : String) : String := "(" ++ value ++ " as List<dynamic>)"

end Dart

namespace Catalog

open Dart

/-- The expression that serialises a field. -/
def toJson (c : Catalog) (name : String) (t : TypeDescriptor) : Rendering String := do
  if isDate t then return name ++ "?.toIso8601String()"
  else if t.kind = .array then
    match ← c.relation t.element with
    | some e =>
      let item := itemName e
      return name ++ "?.map((" ++ item ++ ") => " ++ item ++ ".toJson())?.toList()"
    | none =>
      if t.element.any isDate then
        return name ++ "?.map((date) => date?.toIso8601String())?.toList()"
      else return name
  else
    match ← c.relation (some t) with
    | some _ => return name ++ "?.toJson()"
    | none => return name

/-- The expression that rebuilds a field. -/
def fromJson (c : Catalog) (name : String) (t : TypeDescriptor) : Rendering String := do
  let value := jsonField name
  if isDate t then return "DateTime.tryParse(" ++ value ++ " ?? '')"
  else if t.kind = .array then
    match ← c.relation t.element with
    | some e =>
      let cls ← liftM (c.className e)
      return jsonList value ++ "?.map((data) => " ++ cls ++ ".fromJson(data))?.toList()"
    | none =>
      if t.element.any isDate then
        return jsonList value ++ "?.map((data) => DateTime.tryParse(data ?? ''))?.toList()"
      else
        let item ←
          match t.element with
          | some e => c.typeName e
          | none => pure anyType
        return jsonList value ++ "?.cast<" ++ item ++ ">()"
  else
    match ← c.relation (some t) with
    | some e => return (← liftM (c.className e)) ++ ".fromJson(" ++ value ++ ")"
    | none => return value

end Catalog

end DartModels
