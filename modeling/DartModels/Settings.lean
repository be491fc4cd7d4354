import DartModels.Error
import DartModels.Path

/-!
# Settings

An options document has two sections.  The source section says where the entities are and how
they are recognised, and the model section how their Dart models are written.

A setting keeps the value that the document gives it, of whatever kind; it is checked where it is
first used.  A section sets any attribute of its record, and one of them stands for all others, so
that a setting can be missing; other names are ignored, except inside `identifier` and `formatters`.

* `setAttribute`: an attribute that is no setting.
* `Settings.ofJson`: the settings of a document.
* `Settings.toJson`: the document that states all settings.
* `Settings.resolvePaths`: the settings with absolute directories.
-/

namespace DartModels

/-! ## Kinds -/

/-- The members of a value that has to be an object. -/
def Json.members (v : Json) : Except Error (List (String × Json)) :=
  match v with
  | .obj ms => .ok ms
  | _ => wrongKind (.noAttribute v.typeName "items")

/-- The items that a value gives when it is listed: the characters of a text, the names of an
object's members. -/
def Json.listed (v : Json) : Except Error (List Json) :=
  match v with
  | .arr items => .ok items
  | .str s => .ok (s.toList.map fun c => .str (String.singleton c))
  | .obj ms => .ok (ms.map fun m => .str m.1)
  | _ => wrongKind (.notIterable v.typeName)

/-- The text of a path below another one. -/
def Json.joinable (v : Json) : Except Error String :=
  match v with
  | .str s => .ok s
  | _ => wrongKind (.notJoinable v.typeName)

/-- The text of a path. -/
def Json.asPath (v : Json) : Except Error String :=
  match v with
  | .str s => .ok s
  | _ => wrongKind (.notPath v.typeName)

/-- The name that a value has as the name of an object's member. -/
def Json.memberName (v : Json) : Except Error String :=
  match v with
  | .null => .ok "null"
  | .bool b => .ok (if b then "true" else "false")
  | .arr _ | .obj _ => wrongKind (.unhashable v.typeName)
  | _ => .ok v.text

/-- A pair of an array that stands for an object. -/
def Json.pair (index : Nat) (v : Json) : Except Error (String × Json) :=
  match v.listed with
  | .error _ => wrongKind (.memberNotPair index)
  | .ok [k, w] => do return (← k.memberName, w)
  | .ok items => .error (.pairLength index items.length)

/-- The members that a value gives as an object.  An array has to list pairs. -/
def Json.asObject (v : Json) : Except Error (List (String × Json)) :=
  match v with
  | .obj ms => .ok ms
  | _ => do
    let items ← v.listed
    let pairs ← (items.zipIdx).mapM fun (item, i) => Json.pair i item
    return pairs.foldl (fun ms p => Json.setMember p.1 p.2 ms) []

/-! ## Records -/

/-- A part of a section: a record read from an object, a value of another kind, or nothing where the
attribute is gone. -/
inductive Section (α : Type) where
  | record (r : α)
  | other (v : Json)
  | missing
  deriving Inhabited

/-- A part with a value of another kind, unless the attribute is gone. -/
def Section.replace {α : Type} (v : Json) : Section α → Section α
  | .missing => .missing
  | _ => .other v

/-- The record of a part, which is asked for its attribute `name`. -/
def Section.recordFor {α : Type} (owner setting name : String) : Section α → Except Error α
  | .record r => .ok r
  | .other v => wrongKind (.noAttribute v.typeName name)
  | .missing => wrongKind (.noAttribute owner setting)

/-- The value of a setting that the record `owner` may have lost. -/
def present (owner setting : String) : Option Json → Except Error Json
  | some v => .ok v
  | none => wrongKind (.noAttribute owner setting)

/-- The attributes of a record besides its settings, apart from the three that the language keeps for
itself. -/
def recordAttributes : List String :=
  ["__annotations__", "__dataclass_fields__", "__dataclass_params__", "__delattr__", "__dir__",
   "__doc__", "__eq__", "__format__", "__ge__", "__getattribute__", "__getstate__", "__gt__",
   "__hash__", "__init__", "__init_subclass__", "__le__", "__lt__", "__match_args__", "__module__",
   "__ne__", "__new__", "__reduce__", "__reduce_ex__", "__repr__", "__setattr__", "__sizeof__",
   "__str__", "__subclasshook__", "from_dict", "to_dict"]

/-- The attributes that the language keeps for itself: the class of a record, all its attributes as
one object, and the references to it. -/
def reservedAttributes : List String := ["__class__", "__dict__", "__weakref__"]

/-- Sets an attribute of the record `owner` that is no setting; a name that it does not have is
ignored. -/
def setAttribute (owner name : String) (v : Json) (attributes : List (String × Json)) :
    Except Error (List (String × Json)) :=
  if name = "__class__" then wrongKind (.notClass v.typeName)
  else if name = "__weakref__" then wrongKind (.notWritable owner name)
  else if recordAttributes.contains name || (attributes.lookup name).isSome then
    .ok (Json.setMember name v attributes)
  else .ok attributes

/-- The printed form of a record: a value in the place of its function for it is not callable. -/
def checkPrintable (attributes : List (String × Json)) : Except Error Unit :=
  match attributes.lookup "to_dict" with
  | some v => wrongKind (.notCallable v.typeName)
  | none => .ok ()

/-! ## The source section -/

/-- The rules by which a class may count as an entity; exactly one of them has to be set. -/
structure EntityRules where
  decorator : Json
  base : Json
  interface : Json
  deriving Inhabited

/-- Rules of which none is set. -/
def EntityRules.empty : EntityRules := ⟨.null, .null, .null⟩

/-- Sets one rule. -/
def EntityRules.set (r : EntityRules) (name : String) (v : Json) : Except Error EntityRules :=
  match name with
  | "decorator" => .ok { r with decorator := v }
  | "extends" => .ok { r with base := v }
  | "implements" => .ok { r with interface := v }
  | _ => wrongKind (.unexpectedField "EntityIdentifier" name)

/-- The rules of an object. -/
def EntityRules.ofMembers (ms : List (String × Json)) : Except Error EntityRules :=
  ms.foldlM (fun r m => r.set m.1 m.2) EntityRules.empty

/-- The rules by name. -/
def EntityRules.entries (r : EntityRules) : List (String × Json) :=
  [("decorator", r.decorator), ("extends", r.base), ("implements", r.interface)]

/-- The rules that are set. -/
def EntityRules.active (r : EntityRules) : List (String × Json) :=
  r.entries.filter fun e => e.2.truthy

/-- The text of a record, by the literals of its attributes. -/
def recordText (owner : String) (fields : List (String × String)) : String :=
  owner ++ "(" ++ ", ".intercalate (fields.map fun f => f.1 ++ "=" ++ f.2) ++ ")"

/-- The text of the rules inside another text. -/
def EntityRules.text (r : EntityRules) : String :=
  recordText "EntityIdentifier" (r.entries.map fun e => (e.1, e.2.literal))

/-- How entities are found. -/
structure SourceSettings where
  /-- Prefixes of module specifiers with the templates of their targets. -/
  aliases : Option Json
  /-- The directory searched for entity files. -/
  cwd : Json
  /-- The directory above the external packages. -/
  root : Json
  /-- The ending of the names of entity files. -/
  ext : Json
  /-- The ending added to module specifiers. -/
  moduleSuffix : Json
  /-- The rules that tell entities. -/
  identifier : Section EntityRules
  /-- A property with this decorator is not exposed. -/
  excludeDecorator : Json
  /-- Whether a property needs a decorator to be exposed. -/
  requireFieldDecorator : Json
  /-- The number of files resolved at a time. -/
  workers : Json
  /-- Values of attributes that are no settings. -/
  attributes : List (String × Json)
  deriving Inhabited

namespace SourceSettings

/-- The name of the record. -/
def owner : String := "ParserConfig"

/-- The settings of an empty section. -/
def default : SourceSettings where
  aliases := some (.obj [])
  cwd := .str "."
  root := .str ".."
  ext := .str ".entity.ts"
  moduleSuffix := .str ".ts"
  identifier := .record EntityRules.empty
  excludeDecorator := .str "Exclude"
  requireFieldDecorator := .bool true
  workers := .null
  attributes := []

/-- The names of the settings. -/
def settingNames : List String :=
  ["aliases", "cwd", "root", "ext", "module_suffix", "identifier", "exclude_decorator",
   "require_field_decorator", "workers"]

/-- The settings whose attributes are the members of an object.  A setting that is not among them has
the default of the record, unless that is made anew for each record. -/
def ofAttributes (members : List (String × Json)) : SourceSettings :=
  let setting (name : String) (value : Json) : Json := (Json.member? name members).getD value
  { aliases := Json.member? "aliases" members
    cwd := setting "cwd" default.cwd
    root := setting "root" default.root
    ext := setting "ext" default.ext
    moduleSuffix := setting "module_suffix" default.moduleSuffix
    identifier := ((Json.member? "identifier" members).map .other).getD .missing
    excludeDecorator := setting "exclude_decorator" default.excludeDecorator
    requireFieldDecorator := setting "require_field_decorator" default.requireFieldDecorator
    workers := setting "workers" default.workers
    attributes := members.filter fun m => !settingNames.contains m.1 }

/-- Sets one attribute. -/
def set (s : SourceSettings) (name : String) (v : Json) : Except Error SourceSettings :=
  match name with
  | "aliases" => .ok { s with aliases := s.aliases.map fun _ => v }
  | "cwd" => .ok { s with cwd := v }
  | "root" => .ok { s with root := v }
  | "ext" => .ok { s with ext := v }
  | "module_suffix" => .ok { s with moduleSuffix := v }
  | "identifier" =>
    match v with
    | .obj ms => do return { s with identifier := .record (← EntityRules.ofMembers ms) }
    | _ => .ok { s with identifier := s.identifier.replace v }
  | "exclude_decorator" => .ok { s with excludeDecorator := v }
  | "require_field_decorator" => .ok { s with requireFieldDecorator := v }
  | "workers" => .ok { s with workers := v }
  | "__dict__" =>
    match v with
    | .obj ms => .ok (ofAttributes ms)
    | _ => wrongKind (.notDictionary v.typeName)
  | _ => do return { s with attributes := ← setAttribute owner name v s.attributes }

/-- The settings of a section. -/
def ofJson (v : Json) : Except Error SourceSettings := do
  (← v.members).foldlM (fun s m => s.set m.1 m.2) default

/-- The table of aliases. -/
def aliasTable (s : SourceSettings) : Except Error Json := present owner "aliases" s.aliases

/-- The rules of a section, which must be a record to be asked for `name`. -/
def rulesFor (s : SourceSettings) (name : String) : Except Error EntityRules :=
  s.identifier.recordFor owner "identifier" name

/-- The text of the settings inside another text. -/
def text (s : SourceSettings) : String :=
  let aliases := s.aliases.toList.map fun v => ("aliases", v.literal)
  let identifier :=
    match s.identifier with
    | .record r => [("identifier", r.text)]
    | .other v => [("identifier", v.literal)]
    | .missing => []
  recordText owner (aliases ++
    [("cwd", s.cwd.literal), ("root", s.root.literal), ("ext", s.ext.literal),
     ("module_suffix", s.moduleSuffix.literal)] ++ identifier ++
    [("exclude_decorator", s.excludeDecorator.literal),
     ("require_field_decorator", s.requireFieldDecorator.literal), ("workers", s.workers.literal)])

/-- The section that states all settings. -/
def toJson (s : SourceSettings) : Except Error Json := do
  checkPrintable s.attributes
  let aliases ← (← s.aliasTable).asObject
  let rules ← s.rulesFor "decorator"
  return .obj
    [("aliases", .obj aliases), ("cwd", s.cwd), ("root", s.root), ("ext", s.ext),
     ("module_suffix", s.moduleSuffix), ("identifier", .obj rules.entries),
     ("exclude_decorator", s.excludeDecorator),
     ("require_field_decorator", s.requireFieldDecorator), ("workers", s.workers)]

end SourceSettings

/-! ## The model section -/

/-- The formats of class names and file names. -/
structure NameFormats where
  name : Json
  filename : Json
  deriving Inhabited

/-- Sets one format. -/
def NameFormats.set (f : NameFormats) (name : String) (v : Json) : Except Error NameFormats :=
  match name with
  | "name" => .ok { f with name := v }
  | "filename" => .ok { f with filename := v }
  | _ => wrongKind (.unexpectedField "FormatterConfig" name)

/-- The formats of an object. -/
def NameFormats.ofMembers (ms : List (String × Json)) : Except Error NameFormats :=
  ms.foldlM (fun f m => f.set m.1 m.2) ⟨.null, .null⟩

/-- The formats by name. -/
def NameFormats.entries (f : NameFormats) : List (String × Json) :=
  [("name", f.name), ("filename", f.filename)]

/-- How models are written. -/
structure ModelSettings where
  /-- The output directory. -/
  out : Json
  /-- Dart files that every model imports, relative to the output directory. -/
  imports : Option Json
  /-- Lines before the imports of every model. -/
  headers : Option Json
  /-- The base class of every model. -/
  baseClass : Json
  /-- The field that the base class holds. -/
  idField : Json
  /-- Whether a model opens with a comment that it is generated. -/
  addGenerationComment : Json
  /-- The formats of class names and file names. -/
  formatters : Section NameFormats
  /-- The number of models written at a time. -/
  workers : Json
  /-- Values of attributes that are no settings. -/
  attributes : List (String × Json)
  deriving Inhabited

namespace ModelSettings

/-- The name of the record. -/
def owner : String := "GeneratorConfig"

/-- The settings of an empty section. -/
def default : ModelSettings where
  out := .str "./models"
  imports := some (.arr [])
  headers := some (.arr [])
  baseClass := .str "Model"
  idField := .str "id"
  addGenerationComment := .bool true
  formatters := .record ⟨.null, .null⟩
  workers := .null
  attributes := []

/-- The names of the settings. -/
def settingNames : List String :=
  ["out", "imports", "headers", "base_class", "id_field", "add_generation_comment", "formatters",
   "workers"]

/-- The settings whose attributes are the members of an object.  A setting that is not among them has
the default of the record, unless that is made anew for each record. -/
def ofAttributes (members : List (String × Json)) : ModelSettings :=
  let setting (name : String) (value : Json) : Json := (Json.member? name members).getD value
  { out := setting "out" default.out
    imports := Json.member? "imports" members
    headers := Json.member? "headers" members
    baseClass := setting "base_class" default.baseClass
    idField := setting "id_field" default.idField
    addGenerationComment := setting "add_generation_comment" default.addGenerationComment
    formatters := ((Json.member? "formatters" members).map .other).getD .missing
    workers := setting "workers" default.workers
    attributes := members.filter fun m => !settingNames.contains m.1 }

/-- Sets one attribute. -/
def set (s : ModelSettings) (name : String) (v : Json) : Except Error ModelSettings :=
  match name with
  | "out" => .ok { s with out := v }
  | "imports" => .ok { s with imports := s.imports.map fun _ => v }
  | "headers" => .ok { s with headers := s.headers.map fun _ => v }
  | "base_class" => .ok { s with baseClass := v }
  | "id_field" => .ok { s with idField := v }
  | "add_generation_comment" => .ok { s with addGenerationComment := v }
  | "formatters" =>
    match v with
    | .obj ms => do return { s with formatters := .record (← NameFormats.ofMembers ms) }
    | _ => .ok { s with formatters := s.formatters.replace v }
  | "workers" => .ok { s with workers := v }
  | "__dict__" =>
    match v with
    | .obj ms => .ok (ofAttributes ms)
    | _ => wrongKind (.notDictionary v.typeName)
  | _ => do return { s with attributes := ← setAttribute owner name v s.attributes }

/-- The settings of a section. -/
def ofJson (v : Json) : Except Error ModelSettings := do
  (← v.members).foldlM (fun s m => s.set m.1 m.2) default

/-- The files that every model imports. -/
def importItems (s : ModelSettings) : Except Error (List Json) := do
  (← present owner "imports" s.imports).listed

/-- The lines before the imports of every model. -/
def headerItems (s : ModelSettings) : Except Error (List Json) := do
  (← present owner "headers" s.headers).listed

/-- The formats of a section, which must be a record to be asked for `name`. -/
def formatsFor (s : ModelSettings) (name : String) : Except Error NameFormats :=
  s.formatters.recordFor owner "formatters" name

/-- The section that states all settings. -/
def toJson (s : ModelSettings) : Except Error Json := do
  checkPrintable s.attributes
  let imports ← s.importItems
  let headers ← s.headerItems
  let formats ← s.formatsFor "name"
  return .obj
    [("out", s.out), ("imports", .arr imports), ("headers", .arr headers),
     ("base_class", s.baseClass), ("id_field", s.idField),
     ("add_generation_comment", s.addGenerationComment), ("formatters", .obj formats.entries),
     ("workers", s.workers)]

end ModelSettings

/-! ## Both sections -/

/-- The settings of a run. -/
structure Settings where
  source : SourceSettings
  model : ModelSettings
  deriving Inhabited

namespace Settings

/-- The settings of an options document. -/
def ofJson (v : Json) : Except Error Settings := do
  match v with
  | .obj ms =>
    let source ← SourceSettings.ofJson ((Json.member? "parser" ms).getD (.obj []))
    let model ← ModelSettings.ofJson ((Json.member? "generator" ms).getD (.obj []))
    return ⟨source, model⟩
  | _ => wrongKind (.noAttribute v.typeName "get")

/-- The document that states all settings. -/
def toJson (s : Settings) : Except Error Json := do
  let source ← s.source.toJson
  let model ← s.model.toJson
  return .obj [("parser", source), ("generator", model)]

/-- Whether the document that states the settings reads back as the same settings. -/
def readsBack (s : Settings) : Except Error Bool := do
  let t ← ofJson (← s.toJson)
  let same (a b : Option Json) : Bool := (a.getD .null).same (b.getD .null)
  return same s.source.aliases t.source.aliases && same s.model.imports t.model.imports &&
    same s.model.headers t.model.headers

/-- The settings with absolute directories.  The source and output directories are relative to the
absolute directory `base`, and the package root is relative to the source directory. -/
def resolvePaths (s : Settings) (base : String) : Except Error Settings := do
  let below (dir : String) (v : Json) : Except Error String := do
    return Path.normalize (Path.join dir (← v.joinable))
  let cwd ← below base s.source.cwd
  let root ← below cwd s.source.root
  let out ← below base s.model.out
  return { s with
    source := { s.source with cwd := .str cwd, root := .str root }
    model := { s.model with out := .str out } }

end Settings

end DartModels
