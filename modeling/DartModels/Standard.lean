import DartModels.Environment
import DartModels.OptionsFile
import DartModels.Syntax.TextReader

/-!
# The environment of the executable

The executable reads sources by their tokens and knows the modules of its own package.  Of what else
the language offers it has the parts of numbers and the kinds of values.

* `Library.ofPackage`: the modules, with functions that read the given files.
* `Attributes.ofNumbers`: the attributes.
* `Environment.standard`: all of it.
-/

namespace DartModels

namespace Library

/-- The module that offers the casings as functions. -/
def casingModule : List String := [Program.name, "utils"]

/-- The dotted name of a module. -/
def moduleName (parts : List String) : String := ".".intercalate parts

/-- The first part of a dotted name that is no module. -/
def missingModule (parts : List String) : String :=
  let known := (parts.zip casingModule).takeWhile fun p => p.1 == p.2
  moduleName (parts.take (known.length + 1))

/-- The reading of an options file as a function of its name.  The settings are no text. -/
def loadFunction (fs : FileSystem) (name : String) : Except Error String := do
  let _ ← Settings.load fs name
  wrongKind (.notJoinable "DarmogenConfig")

/-- What a module without the name answers. -/
def withoutName (module name : String) : Imported :=
  .missing s!"module '{module}' has no attribute '{name}'"

/-- The modules of the package. -/
def ofPackage (fs : FileSystem) : Library where
  find module name :=
    let parts := (splitAtChar '.' module.toList).map String.ofList
    let casing := (Casing.ofName? name).filter fun _ => parts == casingModule
    match casing with
    | some c => .function fun text => .ok (c.apply text)
    | none =>
      if parts == casingModule then
        if name == "CASINGS" then .value else withoutName module name
      else if casingModule.isPrefixOf parts then
        let missing := moduleName (parts.take (casingModule.length + 1))
        .missing s!"No module named '{missing}'; '{moduleName casingModule}' is not a package"
      else if parts == [Program.name] then
        if name == "load_config" then .function (loadFunction fs) else withoutName module name
      else .missing s!"No module named '{missingModule parts}'"

end Library

namespace Attributes

/-- The parts of a number, as of a complex one and of a quotient. -/
def ofNumber (n : Int) : String → Option Context
  | "real" | "numerator" => some (.value (.int n))
  | "imag" => some (.value (.int 0))
  | "denominator" => some (.value (.int 1))
  | _ => none

/-- The kind of a value as an object. -/
def kindOf (v : Json) : Context := .object 0 ("<class '" ++ v.typeName ++ "'>")

/-- The attributes of values. -/
def standard : Attributes
  | .value v, "__class__" => some (kindOf v)
  | .value (.bool b), name => ofNumber (if b then 1 else 0) name
  | .value (.int n), name => ofNumber n name
  | .value (.fraction x), "real" => some (.value (.fraction x))
  | _, _ => none

end Attributes

/-- What the executable takes from elsewhere. -/
def Environment.standard (fs : FileSystem) : Environment :=
  ⟨Syntax.textReader, .ofPackage fs, .standard⟩

end DartModels
