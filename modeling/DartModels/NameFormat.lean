import DartModels.Error
import DartModels.Text.Casing

/-!
# Name formats

A format turns the name of an entity into a class name or a file name.  It is the name of a
casing, a template over the casings, or the import path of a function.  Modules from elsewhere are
a parameter.

* `NameFormat.ofImport`: the format of an import path.
* `NameFormat.ofJson`: the format of a setting, null standing for a default.
* `NameFormat.apply`: a name in a format.
-/

namespace DartModels

/-- How a name is written. -/
inductive NameFormat where
  | casing (c : Casing)
  | template (t : String)
  /-- A function that was imported: what it gives for a name, or how it fails. -/
  | function (call : String → Except Error String)
  deriving Inhabited

/-- What the import of a name from a module gives. -/
inductive Imported where
  /-- There is no such module, or no such name in it. -/
  | missing (reason : String)
  /-- The module itself fails. -/
  | failed (error : Error)
  /-- A value that cannot be called. -/
  | value
  | function (call : String → Except Error String)
  deriving Inhabited

/-- The modules that can be imported, each told by its name; importing one does nothing else. -/
structure Library where
  find : (module name : String) → Imported
  deriving Inhabited

namespace NameFormat

/-! ## Imported functions -/

/-- The format that an import path `module:function` stands for.  The module has a name, which is not
relative to another module. -/
def ofImport (library : Library) (path : String) : Except Error NameFormat :=
  let chars := path.toList
  let module := chars.takeWhile (· != ':')
  let name := String.ofList module
  if module.isEmpty then .error .emptyModuleName
  else if module.head? == some '.' then wrongKind (.relativeModule name)
  else
    match library.find name (String.ofList (chars.drop (module.length + 1))) with
    | .missing reason => .error (.formatImport path reason)
    | .failed e => .error e
    | .value => .error (.formatNotFunction path)
    | .function call => .ok (.function call)

/-! ## Formats -/

/-- The format of a value. -/
def ofValue (library : Library) (value : Json) : Except Error NameFormat :=
  match value with
  | .str s =>
    match Casing.ofName? s with
    | some c => .ok (.casing c)
    | none =>
      if s.toList.contains '{' then .ok (.template s)
      else if s.toList.contains ':' then ofImport library s
      else .error (.unknownFormat s)
  | .arr _ | .obj _ => wrongKind (.unhashable value.typeName)
  | _ => wrongKind (.notContainer value.typeName)

/-- The format of a setting.  Null stands for the default. -/
def ofJson (library : Library) (value default : Json) : Except Error NameFormat :=
  match value with
  | .null => ofValue library default
  | v => ofValue library v

/-- The values that a template can name. -/
def templateValues (name : String) : List (String × String) :=
  ("name", name) :: Casing.all.map fun c => (c.name, c.apply name)

/-- A name in a format. -/
def apply (f : NameFormat) (name : String) : Except Error String :=
  match f with
  | .casing c => .ok (c.apply name)
  | .template t => (Template.expand (templateValues name) t).mapError Error.template
  | .function call => call name

/-- The default format of class names. -/
def defaultName : Json := .str "pascal"

/-- The default format of file names. -/
def defaultFilename : Json := .str "\x7bkebab\x7d.dart"

end NameFormat

end DartModels
