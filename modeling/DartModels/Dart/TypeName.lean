import DartModels.Dart.Catalog

/-!
# Dart types

* `Catalog.typeName`: the Dart type of a field, entities by their class names.
-/

namespace DartModels

namespace Dart

/-- The names of types that hold a date. -/
def dateTypes : List String := ["Date"]

/-- The names of types that hold a number. -/
def numericTypes : List String := ["Number", "BigInt"]

/-- The Dart type of anything. -/
def anyType : String := "dynamic"

/-- The Dart types of the primitive types. -/
def primitiveTypes : List (String × String) :=
  [("String", "String"), ("Boolean", "bool"), ("Any", "dynamic"), ("Unknown", "dynamic"),
   ("Object", "dynamic"), ("Symbol", "dynamic"), ("Void", "dynamic"), ("Never", "dynamic"),
   ("Null", "dynamic"), ("Undefined", "dynamic")]

/-- Whether a type holds a date. -/
def isDate (t : TypeDescriptor) : Bool := dateTypes.contains t.name

/-- A list of items of a Dart type. -/
def listOf (item : String) : String := "List<" ++ item ++ ">"

end Dart

namespace Catalog

open Dart

/-- The Dart type of a field.  The names of dates and numbers go before the kind. -/
def typeName (c : Catalog) : TypeDescriptor → Rendering String
  | .mk kind name element objectType indexType arguments importFile relativePath =>
    if dateTypes.contains name then pure "DateTime"
    else if numericTypes.contains name then pure "int"
    else
      match kind, element, indexType with
      | .array, none, _ => pure (listOf anyType)
      | .array, some e, _ => do return listOf (← typeName c e)
      | .indexedAccess, _, none => pure anyType
      | .indexedAccess, _, some i => typeName c i
      | .reference, _, _ => do
        match ← c.relation (some (.mk kind name element objectType indexType arguments importFile
          relativePath)) with
        | some e => liftM (c.className e)
        | none => return anyType
      | .unknown, _, _ => pure anyType
      | .primitive, _, _ => pure ((primitiveTypes.lookup name).getD name)
termination_by t => sizeOf t

end Catalog

end DartModels
