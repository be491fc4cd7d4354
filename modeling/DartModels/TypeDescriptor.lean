/-!
# Type descriptors

The type of a property, reduced to what a model needs: its kind, its name and the types inside it.

* `TypeKind.name`: the spelling of each kind.
-/

namespace DartModels

/-- The kind of a type. -/
inductive TypeKind where
  /-- A type of the language, such as `string`. -/
  | primitive
  /-- A named type, such as `Date` or `Promise<User>`. -/
  | reference
  /-- A list of items of one type. -/
  | array
  /-- The type of a member of another type. -/
  | indexedAccess
  /-- Any other type. -/
  | unknown
  deriving DecidableEq, Inhabited

/-- The spelling of a kind. -/
def TypeKind.name : TypeKind → String
  | .primitive => "primitive"
  | .reference => "reference"
  | .array => "array"
  | .indexedAccess => "indexed_access"
  | .unknown => "unknown"

/-- All kinds. -/
def TypeKind.all : List TypeKind := [.primitive, .reference, .array, .indexedAccess, .unknown]

/-- The kind with a spelling. -/
def TypeKind.ofName? (s : String) : Option TypeKind := TypeKind.all.find? fun k => k.name == s

/-- The type of a property. -/
inductive TypeDescriptor where
  /-- A type by its kind and name, with the type of the items of an array, the two types of an
  indexed access and the arguments of a reference.  An imported name has the file that exports it,
  absolute and relative to the source directory. -/
  | mk (kind : TypeKind) (name : String) (element objectType indexType : Option TypeDescriptor)
      (arguments : List TypeDescriptor) (importFile relativePath : Option String)
  deriving Inhabited

namespace TypeDescriptor

/-- The kind of a type. -/
def kind : TypeDescriptor → TypeKind
  | .mk k _ _ _ _ _ _ _ => k

/-- The name of a type. -/
def name : TypeDescriptor → String
  | .mk _ n _ _ _ _ _ _ => n

/-- The type of the items of an array. -/
def element : TypeDescriptor → Option TypeDescriptor
  | .mk _ _ e _ _ _ _ _ => e

/-- The type that an indexed access looks into. -/
def objectType : TypeDescriptor → Option TypeDescriptor
  | .mk _ _ _ o _ _ _ _ => o

/-- The type of the index of an indexed access. -/
def indexType : TypeDescriptor → Option TypeDescriptor
  | .mk _ _ _ _ i _ _ _ => i

/-- The arguments of a reference. -/
def arguments : TypeDescriptor → List TypeDescriptor
  | .mk _ _ _ _ _ a _ _ => a

/-- The file that exports the name. -/
def importFile : TypeDescriptor → Option String
  | .mk _ _ _ _ _ _ f _ => f

/-- The file that exports the name, relative to the source directory. -/
def relativePath : TypeDescriptor → Option String
  | .mk _ _ _ _ _ _ _ r => r

/-- A type of the language. -/
def primitive (name : String) : TypeDescriptor := .mk .primitive name none none none [] none none

/-- A type of no other kind. -/
def unknown (name : String) : TypeDescriptor := .mk .unknown name none none none [] none none

/-- A list of items. -/
def array (element : TypeDescriptor) : TypeDescriptor :=
  .mk .array "ArrayType" (some element) none none [] none none

/-- The type of a member of another type. -/
def indexedAccess (object index : TypeDescriptor) : TypeDescriptor :=
  .mk .indexedAccess "IndexedAccessType" none (some object) (some index) [] none none

/-- A named type. -/
def reference (name : String) (arguments : List TypeDescriptor)
    (importFile relativePath : Option String) : TypeDescriptor :=
  .mk .reference name none none none arguments importFile relativePath

end TypeDescriptor

end DartModels
