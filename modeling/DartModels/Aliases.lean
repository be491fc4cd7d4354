import DartModels.Settings
import DartModels.Text.Placeholder

/-!
# Aliases

An alias gives a target to the start of a module specifier.  The target is written as a template
whose placeholders are dotted paths into the source settings.  A path goes on into the attributes
that the language itself gives to every object; these are a parameter.

* `Context.get?`: the value at a dotted path, if there is one.
* `Aliases.ofJson`: the aliases of a table with their targets expanded, each once.
* `Aliases.substitute`: a specifier after all aliases, each applied to the result of the one before.
-/

namespace DartModels

/-! ## Dotted paths -/

/-- What a dotted path can lead to. -/
inductive Context where
  | value (v : Json)
  | rules (r : EntityRules)
  | settings (s : SourceSettings)
  /-- Any other object of the language, with its text. -/
  | object (identity : Nat) (text : String)
  deriving Inhabited

/-- The attributes that the language gives to what a path leads to, besides the members of objects
and the settings of records. -/
abbrev Attributes := Context → String → Option Context

namespace Context

/-- A part of a section as something to look into. -/
def ofSection : Section EntityRules → Option Context
  | .record r => some (.rules r)
  | .other v => some (.value v)
  | .missing => none

/-- The settings by name, with the values of other attributes that were set. -/
def settingsFields (s : SourceSettings) : List (String × Context) :=
  let part (name : String) (c : Option Context) : List (String × Context) :=
    c.toList.map fun c => (name, c)
  part "aliases" (s.aliases.map .value) ++
    [("cwd", .value s.cwd), ("root", .value s.root), ("ext", .value s.ext),
     ("module_suffix", .value s.moduleSuffix)] ++
    part "identifier" (ofSection s.identifier) ++
    [("exclude_decorator", .value s.excludeDecorator),
     ("require_field_decorator", .value s.requireFieldDecorator), ("workers", .value s.workers)] ++
    s.attributes.map fun m => (m.1, .value m.2)

/-- What a record of settings holds under a name that the language does not keep for itself. -/
def held? (s : SourceSettings) (name : String) : Option Context :=
  if reservedAttributes.contains name then none else (settingsFields s).lookup name

/-- What stands under a name: a member of an object, nothing in null, and an attribute of anything
else. -/
def child? (attributes : Attributes) (name : String) : Context → Option Context
  | .value .null => none
  | .value (.obj ms) => (Json.member? name ms).map .value
  | .rules r => ((Json.member? name r.entries).map .value).orElse fun _ => attributes (.rules r) name
  | .settings s => (held? s name).orElse fun _ => attributes (.settings s) name
  | c => attributes c name

/-- What a dotted path leads to. -/
def get? (attributes : Attributes) (c : Context) (path : List Char) : Option Context :=
  (splitAtChar '.' path).foldl
    (fun c part => c.bind (child? attributes (String.ofList part))) (some c)

/-- The text of what a dotted path leads to; null has none. -/
def text : Context → String
  | .value .null => ""
  | .value v => v.text
  | .rules r => r.text
  | .settings s => s.text
  | .object _ text => text

/-- The text at a dotted path, empty if there is nothing. -/
def textAt (attributes : Attributes) (c : Context) (path : List Char) : List Char :=
  match c.get? attributes path with
  | some v => v.text.toList
  | none => []

/-- The value at a dotted path of a value, null if there is none. -/
def valueAt (attributes : Attributes) (v : Json) (path : String) : Json :=
  match get? attributes (.value v) path.toList with
  | some (.value w) => w
  | _ => .null

end Context

/-! ## Tables -/

/-- Prefixes of specifiers with their targets, in the order of the settings. -/
structure Aliases where
  entries : List (String × String)
  deriving DecidableEq, Inhabited

namespace Aliases

/-- The target that a template writes. -/
def target (attributes : Attributes) (context : Context) (template : Json) : Except Error String :=
  match template with
  | .str s => .ok (String.ofList (Placeholder.expand (context.textAt attributes) s.toList))
  | _ => wrongKind (.notText template.typeName)

/-- The aliases of a table. -/
def ofJson (attributes : Attributes) (table : Json) (context : Context) : Except Error Aliases := do
  let entries ← (← table.members).mapM fun (name, template) => do
    return (name, ← target attributes context template)
  return ⟨entries⟩

/-- The target of a prefix. -/
def get (a : Aliases) (name : String) : Except Error String :=
  match a.entries.lookup name with
  | some t => .ok t
  | none => .error (.missingKey name)

/-- A specifier after one alias, with whether some alias applied so far. -/
def step (state : Bool × List Char) (entry : String × String) : Bool × List Char :=
  if entry.1.toList.isPrefixOf state.2 then
    (true, entry.2.toList ++ state.2.drop entry.1.toList.length)
  else state

/-- A specifier after all aliases, with whether one applied. -/
def substitute (a : Aliases) (specifier : List Char) : Bool × List Char :=
  a.entries.foldl step (false, specifier)

end Aliases

end DartModels
