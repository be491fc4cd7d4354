import DartModels.Dart.Conversion
import DartModels.Dart.Imports
import DartModels.Program

/-!
# The text of a model

A model is a class with one variable a field, a constructor, a serialiser and a factory.

* `Dart.classText`: the class for given fields.
* `Catalog.emit`: the whole file of an entity's model.
-/

namespace DartModels

namespace Dart

/-- A field with its Dart type and conversions. -/
structure FieldText where
  name : String
  type : String
  toJson : String
  fromJson : String
  deriving DecidableEq, Inhabited

/-- What the text of a class is made of. -/
structure ClassText where
  name : String
  base : String
  idField : Json
  fields : List FieldText
  deriving Inhabited

/-- The fields that the constructor names besides the identity field. -/
def ClassText.parameters (t : ClassText) : List FieldText :=
  t.fields.filter fun f => !(Json.str f.name).same t.idField

/-- The text of a class. -/
def classText (t : ClassText) : String :=
  let lines (f : FieldText → String) : String := String.join (t.fields.map f)
  let id := t.idField.text
  "class " ++ t.name ++ " extends " ++ t.base ++ " \x7b\n" ++
    lines (fun f => "  " ++ f.type ++ " " ++ f.name ++ ";\n") ++
    "\n  " ++ t.name ++ "(\n      \x7bString " ++ id ++
    String.join (t.parameters.map fun f => ",\n      this." ++ f.name) ++
    "\x7d)\n      : super(" ++ id ++ ");\n" ++
    "\n  @override\n  Map<String, dynamic> toJson() => \x7b\n" ++
    lines (fun f => "        '" ++ f.name ++ "': " ++ f.toJson ++ ",\n") ++
    "      \x7d;\n" ++
    "\n  factory " ++ t.name ++ ".fromJson(Map<String, dynamic> json) \x7b\n" ++
    "    if (json == null) return null;\n    return " ++ t.name ++ "(\n" ++
    lines (fun f => "      " ++ f.name ++ ": " ++ f.fromJson ++ ",\n") ++
    "    );\n  \x7d\n\x7d\n"

/-- The comment at the start of a generated file. -/
def generationComment : String :=
  s!"// Generated by {Program.name} {Program.version}. Do not edit by hand.\n"

/-- The lines before a class. -/
def headerText (commented : Bool) (lines : List Json) : String :=
  (if commented then generationComment else "") ++
    String.join (lines.map fun line => line.text ++ "\n")

end Dart

namespace Catalog

open Dart

/-- A field with its Dart type and conversions. -/
def fieldText (c : Catalog) (f : Field) : Rendering FieldText := do
  let type ← c.typeName f.type
  let toJson ← c.toJson f.name f.type
  let fromJson ← c.fromJson f.name f.type
  return ⟨f.name, type, toJson, fromJson⟩

/-- The class of an entity. -/
def bodyText (c : Catalog) (s : ModelSettings) (e : ModelEntity) : Rendering ClassText := do
  let fields ← e.fields.mapM c.fieldText
  let name ← liftM (c.className e)
  return ⟨name, s.baseClass.text, s.idField, fields⟩

/-- The file of an entity's model.  The class comes first, because the header imports what it
refers to. -/
def emit (c : Catalog) (s : ModelSettings) (fs : FileSystem) (e : ModelEntity) :
    Rendering String := do
  let body := classText (← c.bodyText s e)
  let lines ← liftM (c.headerLines s fs e (← get))
  let header := headerText s.addGenerationComment.truthy lines
  return if header.isEmpty then body else header ++ "\n" ++ body

end Catalog

end DartModels
