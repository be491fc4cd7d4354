import DartModels.Syntax.TokenTree

/-!
# Syntax nodes

A source is read into a tree of nodes.  A node has a kind, the label under which its parent holds
it, its text and its children.  A comment is a child of the innermost node that goes on after it.

* `Kind.name`: the name of a kind.
* `Node.child?`: the child with a label.
-/

namespace DartModels

namespace Syntax

/-- The kind of a node.  The kinds that nothing asks for are told by their names. -/
inductive Kind where
  | program
  | statement
  | exportStatement
  | importStatement
  | importClause
  | namespaceImport
  | namedImports
  | importSpecifier
  | classDeclaration
  | abstractClassDeclaration
  | decorator
  | classHeritage
  | extendsClause
  | implementsClause
  | classBody
  | fieldDefinition
  | typeClause
  | comment
  | identifier
  | propertyName
  | string
  | number
  | unaryExpression
  | trueLiteral
  | falseLiteral
  | nullLiteral
  | undefinedLiteral
  | expression
  | parenthesizedExpression
  | callExpression
  | memberExpression
  | predefinedType
  | literalType
  | templateLiteralType
  | typeIdentifier
  | nestedTypeIdentifier
  | genericType
  | typeArguments
  | unionType
  | intersectionType
  | conditionalType
  | functionType
  | constructorType
  | parenthesizedType
  | readonlyType
  | arrayType
  | lookupType
  | objectType
  | tupleType
  | typeQuery
  | indexTypeQuery
  | inferType
  | thisType
  | typePredicate
  | templateString
  | other (name : String)
  deriving DecidableEq, Inhabited

/-- The name of a kind. -/
def Kind.name : Kind → String
  | .program => "program"
  | .statement => "statement"
  | .exportStatement => "export_statement"
  | .importStatement => "import_statement"
  | .importClause => "import_clause"
  | .namespaceImport => "namespace_import"
  | .namedImports => "named_imports"
  | .importSpecifier => "import_specifier"
  | .classDeclaration => "class_declaration"
  | .abstractClassDeclaration => "abstract_class_declaration"
  | .decorator => "decorator"
  | .classHeritage => "class_heritage"
  | .extendsClause => "extends_clause"
  | .implementsClause => "implements_clause"
  | .classBody => "class_body"
  | .fieldDefinition => "public_field_definition"
  | .typeClause => "type_annotation"
  | .comment => "comment"
  | .identifier => "identifier"
  | .propertyName => "property_identifier"
  | .string => "string"
  | .number => "number"
  | .unaryExpression => "unary_expression"
  | .trueLiteral => "true"
  | .falseLiteral => "false"
  | .nullLiteral => "null"
  | .undefinedLiteral => "undefined"
  | .expression => "expression"
  | .parenthesizedExpression => "parenthesized_expression"
  | .callExpression => "call_expression"
  | .memberExpression => "member_expression"
  | .predefinedType => "predefined_type"
  | .literalType => "literal_type"
  | .templateLiteralType => "template_literal_type"
  | .typeIdentifier => "type_identifier"
  | .nestedTypeIdentifier => "nested_type_identifier"
  | .genericType => "generic_type"
  | .typeArguments => "type_arguments"
  | .unionType => "union_type"
  | .intersectionType => "intersection_type"
  | .conditionalType => "conditional_type"
  | .functionType => "function_type"
  | .constructorType => "constructor_type"
  | .parenthesizedType => "parenthesized_type"
  | .readonlyType => "readonly_type"
  | .arrayType => "array_type"
  | .lookupType => "lookup_type"
  | .objectType => "object_type"
  | .tupleType => "tuple_type"
  | .typeQuery => "type_query"
  | .indexTypeQuery => "index_type_query"
  | .inferType => "infer_type"
  | .thisType => "this_type"
  | .typePredicate => "type_predicate"
  | .templateString => "template_string"
  | .other name => name

/-- The label under which a node holds a child. -/
inductive Label where
  | none
  | name
  | alias
  | type
  | typeArguments
  | value
  | function
  | property
  | declaration
  | source
  | body
  deriving DecidableEq, Inhabited

/-- A node of a syntax tree. -/
inductive Node where
  | mk (kind : Kind) (label : Label) (text : String) (children : List Node)
  deriving Inhabited

namespace Node

/-- The kind of a node. -/
def kind : Node → Kind
  | .mk k _ _ _ => k

/-- The label under which the parent of a node holds it. -/
def label : Node → Label
  | .mk _ l _ _ => l

/-- The text of a node, as the source has it. -/
def text : Node → String
  | .mk _ _ t _ => t

/-- The children of a node. -/
def children : Node → List Node
  | .mk _ _ _ cs => cs

/-- The node under another label. -/
def labelled (l : Label) : Node → Node
  | .mk k _ t cs => .mk k l t cs

/-- The first child with a label. -/
def child? (n : Node) (l : Label) : Option Node := n.children.find? fun c => c.label == l

/-- The children of a kind. -/
def childrenOf (n : Node) (k : Kind) : List Node := n.children.filter fun c => c.kind == k

/-- A node without children over trees. -/
def leaf (k : Kind) (ts : List Tree) : Node := .mk k .none (Tree.written ts) []

/-- The comments among trees as nodes. -/
def ofComments (ts : List Tree) : List Node :=
  (ts.filter Tree.isComment).map fun t => leaf .comment [t]

/-- The trees that were read, from a place up to a later one. -/
def between (start rest : List Tree) : List Tree := start.take (start.length - rest.length)

/-- A node over the trees that were read. -/
def covering (k : Kind) (start rest : List Tree) (children : List Node) : Node :=
  .mk k .none (Tree.written (between start rest)) children

end Node

end Syntax

end DartModels
