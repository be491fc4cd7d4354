import DartModels.TypeDescriptor

/-!
# Entities

An entity is a class that gets a model, with its visible fields and the file that declares it.
-/

namespace DartModels

/-- A visible property of an entity. -/
structure Field where
  name : String
  type : TypeDescriptor
  /-- The class that declares the property: the entity itself or an ancestor. -/
  declaredIn : String
  deriving Inhabited

/-- An entity of the source tree. -/
structure SourceEntity where
  /-- The declaring file, relative to the source directory. -/
  path : String
  name : String
  fields : List Field
  deriving Inhabited

/-- An entity with the file of its model. -/
structure ModelEntity where
  /-- The declaring file, relative to the source directory. -/
  path : String
  name : String
  fields : List Field
  /-- The file of the model. -/
  target : String
  deriving Inhabited

end DartModels
