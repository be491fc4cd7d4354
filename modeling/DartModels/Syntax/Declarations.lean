import DartModels.Error
import DartModels.Syntax.Node

/-!
# Declarations of a source

What a tree declares: its classes with decorators, heritage and properties, and its imports.

* `Node.classes`: the class declarations of a source, exported or not, with what is around them.
* `Node.classDecorators`: the decorators of a class with their places.
* `Node.decoratorNames`: the names of all decorators of a class.
* `Node.heritageNames`: what a class extends and what it implements.
* `Node.imports`: the modules of a source's imports with the names they bind.
-/

namespace DartModels

namespace Syntax

/-- A node of a source with its place: the numbers of the children on the way down to it. -/
structure Placed where
  place : List Nat
  node : Node
  deriving Inhabited

/-- What is around the declaration of a class. -/
structure Surroundings where
  /-- The statements before the one that declares the class. -/
  before : List Placed
  /-- The export around the class. -/
  exported : Option Node
  deriving Inhabited

namespace Placed

/-- The children of a node, each with its place. -/
def children (n : Placed) : List Placed :=
  n.node.children.zipIdx.map fun (c, i) => ⟨n.place ++ [i], c⟩

/-- Whether a node is a decorator. -/
def isDecorator (n : Placed) : Bool := n.node.kind == .decorator

/-- The decorators that end a row of nodes. -/
def closing (row : List Placed) : List Placed := (row.reverse.takeWhile isDecorator).reverse

/-- The decorators of a node: those right after each other before it, and those that it holds. -/
def decorators (before : List Placed) (n : Placed) : List Placed :=
  closing before ++ n.children.filter isDecorator

end Placed

namespace Node

/-- Whether a node declares a class. -/
def isClass (n : Node) : Bool :=
  n.kind == .classDeclaration || n.kind == .abstractClassDeclaration

/-- The class that a statement declares, with the export around it if there is one. -/
def declaredClass? (n : Node) : Option (Node × Option Node) :=
  if n.isClass then some (n, none)
  else if n.kind == .exportStatement then
    match n.child? .declaration with
    | some d => if d.isClass then some (d, some n) else none
    | none => none
  else none

/-- The class declarations of a source. -/
def classes (program : Node) : List (Node × Surroundings) :=
  program.children.zipIdx.filterMap fun (statement, i) =>
    (declaredClass? statement).map fun (cls, exported) =>
      (cls, ⟨(Placed.children ⟨[], program⟩).take i, exported⟩)

/-- The name of a class declaration. -/
def className (n : Node) : String := ((n.child? .name).map text).getD ""

/-! ## Decorators -/

/-- The name of a decorator: the callee of a call, and the last part of a dotted name. -/
def decoratorName (n : Node) : String :=
  match n.children with
  | [] => ""
  | e :: _ =>
    let callee := if e.kind == .callExpression then e.child? .function else some e
    match callee with
    | some c =>
      if c.kind == .memberExpression then ((c.child? .property).map text).getD "" else c.text
    | none => ""

/-- The decorators that a node holds. -/
def decorators (n : Node) : List Node := n.childrenOf .decorator

/-- The decorators of a class with their places.  Those of the export come first, without the ones
that are decorators of the class already; two decorators at one place are one. -/
def classDecorators (cls : Node) (around : Surroundings) : List Placed :=
  let statement := [around.before.length]
  match around.exported with
  | none => Placed.decorators around.before ⟨statement, cls⟩
  | some e =>
    let outer : Placed := ⟨statement, e⟩
    let row := outer.children.takeWhile fun c => c.node.label != .declaration
    let near := Placed.decorators row ⟨statement ++ [row.length], cls⟩
    (Placed.decorators around.before outer).filter (fun d => near.all fun c => c.place != d.place) ++
      near

/-- The names of the decorators of a class. -/
def decoratorNames (cls : Node) (around : Surroundings) : List String :=
  (cls.classDecorators around).map fun d => d.node.decoratorName

/-! ## Heritage -/

/-- The text of the last part of a dotted name. -/
def lastPart (n : Node) : Except Error String := do return (← lastOf n.children).text

/-- The name of what a heritage clause refers to: a generic type by its name, and a dotted name by
its last part. -/
def heritageName (n : Node) : Except Error String :=
  let named := if n.kind == .genericType then (n.child? .name).getD n else n
  if named.kind == .memberExpression || named.kind == .nestedTypeIdentifier then named.lastPart
  else .ok named.text

/-- What the clauses of a class's heritage hold. -/
def clauses (cls : Node) (k : Kind) : List Node :=
  ((cls.childrenOf .classHeritage).flatMap fun h => h.childrenOf k).flatMap children

/-- What a class extends and what it implements. -/
def heritageNames (cls : Node) : Except Error (List String × List String) := do
  let bases ← ((cls.clauses .extendsClause).filter fun v => v.label == .value).mapM heritageName
  let interfaces ← (cls.clauses .implementsClause).mapM heritageName
  return (bases, interfaces)

/-! ## Properties -/

/-- The property declarations of a class. -/
def properties (cls : Node) : List Node :=
  match cls.child? .body with
  | some body => body.childrenOf .fieldDefinition
  | none => []

/-- A text without the quotes at both ends. -/
def unquoted (s : String) : String :=
  let isQuote (c : Char) : Bool := c == '\'' || c == '"'
  let cs := s.toList.dropWhile isQuote
  String.ofList (cs.reverse.dropWhile isQuote).reverse

/-- The name of a property. -/
def propertyName (n : Node) : String := unquoted (((n.child? .name).map text).getD "")

/-- The type of a property, if it has an annotation. -/
def propertyType? (n : Node) : Option Node := (n.child? .type).bind fun a => a.children.head?

/-! ## Imports -/

/-- A text without its first and last character. -/
def inner (s : String) : String := String.ofList (s.toList.drop 1).dropLast

/-- The names that a part of an import clause binds. -/
def boundNames (part : Node) : List String :=
  match part.kind with
  | .identifier => [part.text]
  | .namespaceImport => (part.childrenOf .identifier).map text
  | .namedImports => (part.childrenOf .importSpecifier).map fun s =>
    (((s.child? .alias).orElse fun _ => s.child? .name).map text).getD ""
  | _ => []

/-- The module of an import and the names it binds. -/
def import? (n : Node) : Option (String × List String) :=
  if n.kind == .importStatement then
    (n.child? .source).map fun source =>
      let parts := (n.childrenOf .importClause).flatMap (·.children)
      (inner source.text, parts.flatMap boundNames)
  else none

/-- The modules of a source's imports with the names they bind. -/
def imports (program : Node) : List (String × List String) := program.children.filterMap import?

end Node

end Syntax

end DartModels
