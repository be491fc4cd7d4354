import DartModels.Source
import DartModels.Text.Casing
import DartModels.TypeDescriptor

/-!
# Reducing types

* `Origin.reference`: a named type with the file it is imported from.
* `Origin.describe`: the descriptor of a type.  Brackets and `readonly` make no difference, and a
  union is its first variant that is not null or undefined.  A child that is looked up has to be
  there.
-/

namespace DartModels

open Syntax

/-- What the names in the types of a source are resolved with. -/
structure Origin where
  files : FileSystem
  /-- The source directory. -/
  cwd : Json
  /-- Local names with the files that export them. -/
  imports : List (String × String)
  deriving Inhabited

namespace Origin

/-! ## Names -/

/-- The names of the language's types. -/
def keywordNames : List (String × String) :=
  [("string", "String"), ("number", "Number"), ("boolean", "Boolean"), ("any", "Any"),
   ("unknown", "Unknown"), ("object", "Object"), ("bigint", "BigInt"), ("symbol", "Symbol"),
   ("void", "Void"), ("never", "Never"), ("undefined", "Undefined"), ("null", "Null")]

/-- A word with a capital first letter and small letters after it. -/
def capitalized (w : String) : String := String.ofList (capitalize w.toList)

/-- The name of a type of the language. -/
def keywordName (w : String) : String := (keywordNames.lookup w).getD (capitalized w)

/-- The name of the type of a literal. -/
def literalName : Kind → String
  | .string | .templateString => "String"
  | .number | .unaryExpression => "Number"
  | .trueLiteral | .falseLiteral => "Boolean"
  | .nullLiteral => "Null"
  | .undefinedLiteral => "Undefined"
  | _ => "Any"

/-- The names that a union passes over. -/
def nullish : List String := ["Null", "Undefined"]

/-- The generic types that are arrays. -/
def arrayGenerics : List String := ["Array", "ReadonlyArray"]

/-- The way from the source directory to a file. -/
def relativePath (o : Origin) (file : String) : Except Error String := do
  match o.cwd with
  | .null => return o.files.relative file "."
  | dir => return o.files.relative file (← dir.asPath)

/-- A named type with the file it is imported from. -/
def reference (o : Origin) (name : String) (arguments : List TypeDescriptor) :
    Except Error TypeDescriptor := do
  match o.imports.lookup name with
  | none => return .reference name arguments none none
  | some file =>
    if file.isEmpty then return .reference name arguments (some file) none
    else return .reference name arguments (some file) (some (← o.relativePath file))

/-! ## Parts -/

/-- The name by which a type refers to another: a dotted name by its last part. -/
def referenceName (n : Node) : Except Error String :=
  if n.kind == .nestedTypeIdentifier then n.lastPart else .ok n.text

/-- A union of variants: the first that is not null or undefined, else the first. -/
def pick (variants : List TypeDescriptor) : Except Error TypeDescriptor :=
  match variants.find? fun v => !nullish.contains v.name with
  | some v => .ok v
  | none => firstOf variants

/-- A generic type.  One argument makes an array of those that are arrays. -/
def generic (o : Origin) (name : String) (arguments : List TypeDescriptor) :
    Except Error TypeDescriptor :=
  match arguments with
  | [item] =>
    if arrayGenerics.contains name then .ok (.array item) else o.reference name arguments
  | _ => o.reference name arguments

/-! ## Types -/

mutual

/-- The descriptor of a type. -/
def describe (o : Origin) : Node → Except Error TypeDescriptor
  | .mk kind label text children =>
    match kind with
    | .parenthesizedType | .readonlyType => describeFirst o children
    | .unionType => do pick (← describeVariants o children)
    | .literalType => do return .primitive (literalName (← firstOf children).kind)
    | .predefinedType => .ok (.primitive (keywordName text))
    | .arrayType => do return .array (← describeFirst o children)
    | .lookupType => describeAccess o children
    | .genericType =>
      match (Node.mk kind label text children).child? .name with
      | none => wrongKind (.noAttribute "NoneType" "type")
      | some named => do
        let name ← referenceName named
        o.generic name (← describeArguments o children)
    | .typeIdentifier | .nestedTypeIdentifier => do
      o.reference (← referenceName (.mk kind label text children)) []
    | _ => .ok (.unknown kind.name)

/-- The descriptor of the first child. -/
def describeFirst (o : Origin) : List Node → Except Error TypeDescriptor
  | [] => .error .listIndex
  | n :: _ => describe o n

/-- The descriptor of an indexed access by its first two children, both looked up at first. -/
def describeAccess (o : Origin) : List Node → Except Error TypeDescriptor
  | object :: index :: _ => do return .indexedAccess (← describe o object) (← describe o index)
  | _ => .error .listIndex

/-- The descriptors of the variants of a union, those of unions inside of it included. -/
def describeVariants (o : Origin) : List Node → Except Error (List TypeDescriptor)
  | [] => .ok []
  | .mk kind label text children :: rest => do
    let here ←
      if kind = .unionType then describeVariants o children
      else (describe o (.mk kind label text children)).map ([·])
    return here ++ (← describeVariants o rest)

/-- The descriptors of types. -/
def describeAll (o : Origin) : List Node → Except Error (List TypeDescriptor)
  | [] => .ok []
  | n :: rest => do
    let t ← describe o n
    return t :: (← describeAll o rest)

/-- The descriptors of the arguments of a generic type. -/
def describeArguments (o : Origin) : List Node → Except Error (List TypeDescriptor)
  | [] => .ok []
  | .mk _ label _ children :: rest =>
    if label = .typeArguments then describeAll o children else describeArguments o rest

end

/-- The descriptor of a type annotation; without one anything goes. -/
def describe? (o : Origin) : Option Node → Except Error TypeDescriptor
  | none => .ok (.primitive "Any")
  | some n => o.describe n

end Origin

end DartModels
