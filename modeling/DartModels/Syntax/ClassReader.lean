import DartModels.Syntax.ExpressionReader

/-!
# Reading classes

Reads decorators, the heritage and the properties of classes.  Methods, accessors, constructors,
index signatures and static blocks are stepped over together with their decorators.

* `ClassReader.readDecorators`: the decorators that come next.
* `ClassReader.readClass?`: the class declaration that comes next.
* `ClassReader.readMembers`: the properties of a class body.
-/

namespace DartModels

namespace Syntax

namespace ClassReader

/-! ## Decorators -/

/-- The expression of a decorator: a name, a call of one, or anything in round brackets. -/
def decorated (ts : List Tree) : Option (Node × List Tree) :=
  match Tree.afterGroup? "(" ts with
  | some (_, rest) => some (.covering .parenthesizedExpression ts rest [], rest)
  | none => do
    let (w, after) ← Tree.nextWord? ts
    let (callee, rest) := TypeReader.memberAccess ts.length ts (.mk .identifier .none w []) after
    let arguments :=
      match TypeReader.arguments? rest with
      | some (_, typed) => Tree.afterGroup? "(" typed
      | none => Tree.afterGroup? "(" rest
    match arguments with
    | some (_, called) =>
      return (.covering .callExpression ts called [callee.labelled .function], called)
    | none => return (callee, rest)

/-- The decorators that come next, each with the comments after it, with one unit of fuel a
decorator. -/
def readDecorators : Nat → List Tree → List Node × List Tree
  | 0, ts => ([], ts)
  | fuel + 1, ts =>
    match Tree.afterMark? "@" ts with
    | none => ([], ts)
    | some after =>
      match decorated (Tree.skipComments after) with
      | none => ([], ts)
      | some (node, rest) =>
        let children := Node.ofComments (Tree.comments after) ++ [node]
        let (more, rest') := readDecorators fuel rest
        (.covering .decorator (Tree.skipComments ts) rest children ::
          (Node.ofComments (Tree.comments rest) ++ more), rest')

/-! ## Heritage -/

/-- Words that start an operand of more than one part. -/
def complexWords : List String := "class" :: "function" :: "async" :: Expression.prefixWords

/-- Whether a value of an `extends` clause ends here. -/
def endsValue (ts : List Tree) : Bool :=
  match Tree.skipComments ts with
  | [] => true
  | .group opening _ _ :: _ => opening.isMark "\x7b"
  | .leaf t :: _ => t.isMark "," || t.isWord "implements"

/-- Accesses and calls after an operand.  Type arguments at the end belong to the clause and are no
part of the value. -/
def accesses : Nat → List Tree → Node → List Tree → Node × List Tree
  | 0, _, node, rest => (node, rest)
  | fuel + 1, start, node, ts =>
    let other (rest : List Tree) : Node × List Tree :=
      accesses fuel start (.covering .expression start rest []) rest
    match Tree.skipComments ts with
    | .group opening _ _ :: rest =>
      if opening.isMark "(" then accesses fuel start (.covering .callExpression start rest []) rest
      else if opening.isMark "[" then other rest
      else (node, ts)
    | .leaf t :: rest =>
      if t.isMark "." || t.isMark "?." then
        match Tree.nextWord? rest with
        | some (w, after) =>
          let part : Node := .mk .propertyName .property w []
          accesses fuel start (.covering .memberExpression start after [node, part]) after
        | none => (node, ts)
      else if t.isMark "!" || t.kind == .template then other rest
      else if t.isMark "<" then
        match TypeReader.arguments? ts with
        | some (_, after) =>
          match Tree.afterGroup? "(" after with
          | some (_, called) =>
            accesses fuel start (.covering .callExpression start called []) called
          | none => if endsValue after then (node, after) else other after
        | none => (node, ts)
      else (node, ts)
    | [] => (node, ts)

/-- A value of an `extends` clause. -/
def readValue (ts : List Tree) : Option (Node × List Tree) :=
  let whole : Option (Node × List Tree) :=
    let rest := Expression.skip true ts
    if rest.length < ts.length then some (.covering .expression ts rest [], rest) else none
  let simple (node : Node) (rest : List Tree) : Option (Node × List Tree) :=
    let (value, after) := accesses ts.length ts node rest
    if endsValue after then some (value, after) else whole
  match ts with
  | .leaf t :: rest =>
    match t.kind with
    | .word =>
      if complexWords.contains (Expression.textOf t) then whole
      else simple (.covering .identifier ts rest []) rest
    | .punctuation => whole
    | _ => simple (.covering .expression ts rest []) rest
  | .group opening _ _ :: rest =>
    if opening.isMark "(" then simple (.covering .parenthesizedExpression ts rest []) rest
    else simple (.covering .expression ts rest []) rest
  | [] => none

/-- The values of an `extends` clause, with one unit of fuel a value. -/
def readValues : Nat → List Tree → List Node × List Tree
  | 0, ts => ([], ts)
  | fuel + 1, ts =>
    match readValue (Tree.skipComments ts) with
    | none => ([], ts)
    | some (node, rest) =>
      match Tree.afterMark? "," rest with
      | some after =>
        let (more, rest) := readValues fuel after
        (node.labelled .value :: more, rest)
      | none => ([node.labelled .value], rest)

/-- The types of an `implements` clause, comments before and between them included. -/
def readInterfaces : Nat → List Tree → List Node × List Tree
  | 0, ts => ([], ts)
  | fuel + 1, ts =>
    match TypeReader.read? false (Tree.skipComments ts) with
    | none => ([], ts)
    | some (node, rest) =>
      let here := Node.ofComments (Tree.comments ts) ++ [node]
      match Tree.afterMark? "," rest with
      | some after =>
        let (more, rest') := readInterfaces fuel after
        (here ++ Node.ofComments (Tree.comments rest) ++ more, rest')
      | none => (here, rest)

/-- The heritage of a class: what it extends, then what it implements. -/
def readHeritage (ts : List Tree) : List Node × List Tree :=
  let start := Tree.skipComments ts
  let (bases, rest) : List Node × List Tree :=
    match Tree.afterWord? "extends" ts with
    | some after =>
      let (values, rest) := readValues after.length after
      ([.covering .extendsClause start rest values], rest)
    | none => ([], ts)
  let (interfaces, rest') : List Node × List Tree :=
    match Tree.afterWord? "implements" rest with
    | some after =>
      let (types, rest') := readInterfaces after.length after
      ([.covering .implementsClause (Tree.skipComments rest) rest' types], rest')
    | none => ([], rest)
  match bases ++ interfaces with
  | [] => ([], ts)
  | clauses => ([.covering .classHeritage start rest' clauses], rest')

/-! ## Members -/

/-- Words that may stand before the name of a member. -/
def modifiers : List String :=
  ["public", "private", "protected", "static", "abstract", "readonly", "override", "declare",
   "accessor", "async", "get", "set"]

/-- Modifiers that name no member themselves, so that the name may stand on a later line. -/
def pureModifiers : List String := ["abstract", "accessor"]

/-- Whether a name or a further modifier follows the modifier `w`. -/
def continuesName (w : String) (ts : List Tree) : Bool :=
  (pureModifiers.contains w || !Tree.opensLine ts) &&
    match Tree.skipComments ts with
    | .leaf t :: _ =>
      t.kind == .word || t.kind == .string || t.kind == .number || t.isMark "*"
    | .group opening _ _ :: _ => opening.isMark "["
    | [] => false

/-- Steps over the words before the name of a member. -/
def skipModifiers : Nat → List Tree → List Tree
  | 0, ts => ts
  | fuel + 1, ts =>
    match Tree.nextWord? ts with
    | some (w, rest) =>
      if modifiers.contains w && continuesName w rest then skipModifiers fuel rest else ts
    | none => ts

/-- Whether the content of square brackets declares an index instead of computing a name. -/
def isIndexSignature (content : List Tree) : Bool :=
  match Tree.nextWord? content with
  | some (_, rest) => (Tree.afterMark? ":" rest).isSome || (Tree.afterWord? "in" rest).isSome
  | none => false

/-- The name of a member and what follows it. -/
def readName (ts : List Tree) : Option (Node × List Tree) :=
  match Tree.skipComments ts with
  | .leaf t :: rest =>
    if t.kind == .word || t.kind == .string || t.kind == .number then
      some ((Node.leaf .propertyName [.leaf t]).labelled .name, rest)
    else none
  | .group opening content closing :: rest =>
    if opening.isMark "[" then
      some ((Node.leaf .propertyName [.group opening content closing]).labelled .name, rest)
    else none
  | [] => none

/-- The type annotation that comes next. -/
def readTypeClause (ts : List Tree) : List Node × List Tree :=
  match Tree.afterMark? ":" ts with
  | none => ([], ts)
  | some after =>
    match TypeReader.read? true (Tree.skipComments after) with
    | none => ([], after)
    | some (node, rest) =>
      let children := Node.ofComments (Tree.comments after) ++ [node]
      ([(Node.covering .typeClause (Tree.skipComments ts) rest children).labelled .type], rest)

/-- What follows an initial value, if one comes next. -/
def skipInitial (ts : List Tree) : List Tree :=
  match Tree.afterMark? "=" ts with
  | some after => Expression.skip true after
  | none => ts

/-- A mark that tells whether a property may be missing. -/
def skipPresence (ts : List Tree) : List Tree :=
  ((Tree.afterMark? "?" ts).orElse fun _ => Tree.afterMark? "!" ts).getD ts

/-- Whether a parameter list comes next, so that the member is a method. -/
def startsParameters (ts : List Tree) : Bool :=
  (Tree.afterMark? "<" ts).isSome ||
    (!Tree.opensLine ts && (Tree.afterGroup? "(" ts).isSome)

/-- The member after its decorators: a property if it is one, and what follows it. -/
def readMember (decorators : List Node) (ts : List Tree) : Option Node × List Tree :=
  let block := (Tree.afterWord? "static" ts).bind (Tree.afterGroup? "\x7b")
  match block with
  | some (_, rest) => (none, rest)
  | none =>
    let head := skipModifiers ts.length ts
    let head := (Tree.afterMark? "*" head).getD head
    match Tree.afterGroup? "[" head with
    | some (content, rest) =>
      if isIndexSignature content then
        (none, Expression.afterResult true (skipPresence rest))
      else readNamed head
    | none => readNamed head
where
  /-- The member from its name on. -/
  readNamed (ts : List Tree) : Option Node × List Tree :=
    match readName ts with
    | none => (none, (Tree.skipComments ts).drop 1)
    | some (name, rest) =>
      let rest := skipPresence rest
      if startsParameters rest then (none, Expression.skipSignature rest)
      else
        let (clause, rest) := readTypeClause rest
        let rest := skipInitial rest
        (some (.covering .fieldDefinition (Tree.skipComments ts) rest
          (decorators ++ name :: clause)), rest)

/-- The properties of a class body, with one unit of fuel a member. -/
def readMembers : Nat → List Tree → List Node
  | 0, _ => []
  | fuel + 1, ts =>
    match Tree.skipComments ts with
    | [] => []
    | t :: rest =>
      if t.first.isMark ";" || t.first.isMark "," then readMembers fuel rest
      else
        let (decorators, after) := readDecorators ts.length ts
        let (member, next) := readMember decorators after
        let next := if next.length < ts.length then next else rest
        member.toList ++ readMembers fuel next

/-! ## Classes -/

/-- Words that cannot name a class. -/
def isClassName (w : String) (rest : List Tree) : Bool :=
  w != "extends" && (w != "implements" || (Tree.afterGroup? "\x7b" rest).isSome)

/-- The class declaration that comes next, after decorators that were read.  It needs a name. -/
def readClass? (decorators : List Node) (ts : List Tree) : Option (Node × List Tree) := do
  let (kind, after) ←
    match Tree.afterWord? "class" ts with
    | some after => some (Kind.classDeclaration, after)
    | none => do
      let after ← (Tree.afterWord? "abstract" ts).bind (Tree.afterWord? "class")
      some (Kind.abstractClassDeclaration, after)
  let (w, rest) ← Tree.nextWord? after
  if !isClassName w rest then none
  let (heritage, rest) := readHeritage (Tree.skipAngles rest)
  let (content, rest) ← Tree.afterGroup? "\x7b" rest
  let body : Node := .mk .classBody .body "" (readMembers (content.length + 1) content)
  let name : Node := .mk .typeIdentifier .name w []
  let children := decorators ++ name :: heritage ++ [body]
  return (.covering kind (Tree.skipComments ts) rest children, rest)

end ClassReader

end Syntax

end DartModels
