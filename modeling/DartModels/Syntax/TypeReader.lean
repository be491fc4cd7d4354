import DartModels.Syntax.Node

/-!
# Reading types

Reads the type at the start of trees.  `&` binds tighter than `|`, and `|` tighter than the
conditional.  In a statement a new line ends a type before a square bracket.

* `TypeReader.read`: a whole type.
* `TypeReader.readArguments`: the types between angle brackets.
* `TypeReader.skipReturn`: steps over a return type, which may be a predicate.

All readers expect their first tree to be no comment and take one unit of fuel a call.
-/

namespace DartModels

namespace Syntax

namespace TypeReader

/-- The words that name a type of the language. -/
def predefined : List String :=
  ["any", "number", "boolean", "string", "symbol", "void", "unknown", "never", "object"]

/-- The words that are literal types, with the kinds of their literals. -/
def literalWords : List (String × Kind) :=
  [("null", .nullLiteral), ("undefined", .undefinedLiteral), ("true", .trueLiteral),
   ("false", .falseLiteral)]

/-- A literal type over one literal. -/
def literal (k : Kind) (start rest : List Tree) : Node :=
  .covering .literalType start rest [.covering k start rest []]

/-- A dotted name, with the place after its last part. -/
def dotted : Nat → List Tree → Node → List Tree → Node × List Tree
  | 0, _, node, rest => (node, rest)
  | fuel + 1, start, node, rest =>
    match (Tree.afterMark? "." rest).bind Tree.nextWord? with
    | some (w, after) =>
      let part : Node := .mk .typeIdentifier .name w []
      dotted fuel start (.covering .nestedTypeIdentifier start after [node, part]) after
    | none => (node, rest)

/-- Member accesses after an expression in a type. -/
def memberAccess : Nat → List Tree → Node → List Tree → Node × List Tree
  | 0, _, node, rest => (node, rest)
  | fuel + 1, start, node, rest =>
    match ((Tree.afterMark? "." rest).orElse fun _ => Tree.afterMark? "?." rest).bind
        Tree.nextWord? with
    | some (w, after) =>
      let part : Node := .mk .propertyName .property w []
      memberAccess fuel start (.covering .memberExpression start after [node, part]) after
    | none => (node, rest)

/-- A type that goes by a name, whose first word came before `rest`: a dotted name, or a member of an
import. -/
def named (fuel : Nat) (w : String) (start rest : List Tree) : Node × List Tree :=
  match if w = "import" then Tree.afterGroup? "(" rest else none with
  | some (_, after) => memberAccess fuel start (.covering .callExpression start after []) after
  | none => dotted fuel start (.covering .typeIdentifier start rest []) rest

/-- What a type query asks about: a name or an import, with member accesses. -/
def queried (fuel : Nat) (ts : List Tree) : Option (List Tree) := do
  let (w, rest) ← Tree.nextWord? ts
  let rest := if w = "import" then ((Tree.afterGroup? "(" rest).map (·.2)).getD rest else rest
  return (memberAccess fuel ts (.leaf .identifier []) rest).2

/-- Whether the next tree starts an arrow. -/
def isArrow (ts : List Tree) : Bool := (Tree.afterMark? "=>" ts).isSome

mutual

/-- A whole type.  With `line` set it stands in a statement, which a new line may end. -/
def read : Nat → Bool → List Tree → Option (Node × List Tree)
  | 0, _, _ => none
  | fuel + 1, line, ts => do
    let (node, rest) ← readUnion fuel line ts
    match if line && Tree.opensLine rest then none else Tree.afterWord? "extends" rest with
    | none => return (node, rest)
    | some after =>
      let (_, rest) ← readUnion fuel false (Tree.skipComments after)
      let rest ←
        match Tree.afterWord? "extends" rest with
        | some bound => (readUnion fuel false (Tree.skipComments bound)).map (·.2)
        | none => some rest
      let (_, rest) ← read fuel false (Tree.skipComments (← Tree.afterMark? "?" rest))
      let (_, rest) ← read fuel line (Tree.skipComments (← Tree.afterMark? ":" rest))
      return (.covering .conditionalType ts rest [], rest)

/-- A union, with an optional mark before its first variant. -/
def readUnion : Nat → Bool → List Tree → Option (Node × List Tree)
  | 0, _, _ => none
  | fuel + 1, line, ts =>
    match Tree.afterMark? "|" ts with
    | some after => do
      let (node, rest) ← readIntersection fuel line (Tree.skipComments after)
      let variants := Node.ofComments (Tree.comments after) ++ [node]
      let first : Node := .covering .unionType ts rest variants
      moreVariants fuel line ts first rest
    | none => do
      let (node, rest) ← readIntersection fuel line ts
      moreVariants fuel line ts node rest

/-- The variants after the first ones. -/
def moreVariants : Nat → Bool → List Tree → Node → List Tree → Option (Node × List Tree)
  | 0, _, _, _, _ => none
  | fuel + 1, line, start, node, ts =>
    match Tree.afterMark? "|" ts with
    | none => some (node, ts)
    | some after => do
      let (next, rest) ← readIntersection fuel line (Tree.skipComments after)
      let children := node :: Node.ofComments (Tree.comments ts) ++
        Node.ofComments (Tree.comments after) ++ [next]
      moreVariants fuel line start (.covering .unionType start rest children) rest

/-- An intersection, with an optional mark before its first part. -/
def readIntersection : Nat → Bool → List Tree → Option (Node × List Tree)
  | 0, _, _ => none
  | fuel + 1, line, ts =>
    match Tree.afterMark? "&" ts with
    | some after => do
      let (node, rest) ← readOperand fuel line (Tree.skipComments after)
      moreParts fuel line ts (.covering .intersectionType ts rest [node]) rest
    | none => do
      let (node, rest) ← readOperand fuel line ts
      moreParts fuel line ts node rest

/-- The parts after the first ones. -/
def moreParts : Nat → Bool → List Tree → Node → List Tree → Option (Node × List Tree)
  | 0, _, _, _, _ => none
  | fuel + 1, line, start, node, ts =>
    match Tree.afterMark? "&" ts with
    | none => some (node, ts)
    | some after => do
      let (next, rest) ← readOperand fuel line (Tree.skipComments after)
      moreParts fuel line start (.covering .intersectionType start rest [node, next]) rest

/-- An operand of `&`: a function type, a type with a word before it, or a primary type. -/
def readOperand : Nat → Bool → List Tree → Option (Node × List Tree)
  | 0, _, _ => none
  | fuel + 1, line, ts =>
    match ts with
    | .leaf t :: rest =>
      if t.isMark "<" then do
        let (_, params) ← Tree.afterGroup? "(" (Tree.skipAngles ts)
        let rest ← skipReturn fuel line (Tree.skipComments (← Tree.afterMark? "=>" params))
        return (.covering .functionType ts rest [], rest)
      else if t.isWord "readonly" && !Tree.isDone rest then do
        let (node, after) ← readUnion fuel line (Tree.skipComments rest)
        let children := Node.ofComments (Tree.comments rest) ++ [node]
        return (.covering .readonlyType ts after children, after)
      else if t.isWord "keyof" then do
        let (node, after) ← readOperand fuel line (Tree.skipComments rest)
        return (.covering .indexTypeQuery ts after [node], after)
      else if t.isWord "infer" then do
        let (_, after) ← Tree.nextWord? rest
        return (.covering .inferType ts after [], after)
      else if t.isWord "new" || (t.isWord "abstract" && (Tree.afterWord? "new" rest).isSome) then do
        let params := if t.isWord "new" then rest else (Tree.afterWord? "new" rest).getD rest
        let (_, after) ← Tree.afterGroup? "(" (Tree.skipAngles params)
        let (_, after) ← read fuel line (Tree.skipComments (← Tree.afterMark? "=>" after))
        return (.covering .constructorType ts after [], after)
      else do
        let (node, after) ← readPrimary fuel ts
        moreSuffixes fuel line ts node after
    | .group opening content _ :: rest =>
      if opening.isMark "(" then
        if isArrow rest then do
          let after ← skipReturn fuel line (Tree.skipComments (← Tree.afterMark? "=>" rest))
          return (.covering .functionType ts after [], after)
        else do
          let (inner, _) ← read fuel false (Tree.skipComments content)
          let node : Node := .covering .parenthesizedType ts rest
            (Node.ofComments (Tree.comments content) ++ [inner])
          moreSuffixes fuel line ts node rest
      else
        let kind := if opening.isMark "[" then Kind.tupleType else Kind.objectType
        moreSuffixes fuel line ts (.covering kind ts rest []) rest
    | [] => none

/-- A type of one token or a name, with its arguments. -/
def readPrimary : Nat → List Tree → Option (Node × List Tree)
  | 0, _ => none
  | fuel + 1, ts =>
    match ts with
    | .leaf t :: rest =>
      match t.kind with
      | .string => some (literal .string ts rest, rest)
      | .number => some (literal .number ts rest, rest)
      | .template => some (.covering .templateLiteralType ts rest [], rest)
      | .punctuation =>
        match if t.isMark "-" || t.isMark "+" then Tree.skipComments rest else [] with
        | .leaf n :: after =>
          if n.kind == .number then some (literal .unaryExpression ts after, after) else none
        | _ => none
      | .word =>
        let w := String.ofList t.text
        match literalWords.lookup w with
        | some kind => some (literal kind ts rest, rest)
        | none =>
          if predefined.contains w then some (.covering .predefinedType ts rest [], rest)
          else if w = "unique" && (Tree.afterWord? "symbol" rest).isSome then
            let after := (Tree.afterWord? "symbol" rest).getD rest
            some (.covering .predefinedType ts after [], after)
          else if w = "this" then some (.covering .thisType ts rest [], rest)
          else if w = "typeof" then do
            let after ← queried fuel rest
            let after :=
              match (Tree.afterMark? "<" after).bind (readArguments fuel) with
              | some (_, closed) => closed
              | none => after
            return (.covering .typeQuery ts after [], after)
          else
            let (name, rest) := named fuel w ts rest
            match (Tree.afterMark? "<" rest).bind (readArguments fuel) with
            | some (arguments, after) =>
              let list : Node := .covering .typeArguments rest after arguments
              let list := list.labelled .typeArguments
              some (.covering .genericType ts after
                (name.labelled .name :: Node.ofComments (Tree.comments rest) ++ [list]), after)
            | none => some (name, rest)
      | _ => none
    | _ => none

/-- Square brackets after a type: an array or an indexed access. -/
def moreSuffixes : Nat → Bool → List Tree → Node → List Tree → Option (Node × List Tree)
  | 0, _, _, _, _ => none
  | fuel + 1, line, start, node, ts =>
    match if line && Tree.opensLine ts then none else Tree.afterGroup? "[" ts with
    | none => some (node, ts)
    | some (content, rest) =>
      let before := node :: Node.ofComments (Tree.comments ts)
      if Tree.isDone content then
        let children := before ++ Node.ofComments content
        moreSuffixes fuel line start (.covering .arrayType start rest children) rest
      else do
        let (index, _) ← read fuel false (Tree.skipComments content)
        let children := before ++ Node.ofComments (Tree.comments content) ++ [index]
        moreSuffixes fuel line start (.covering .lookupType start rest children) rest

/-- The types between angle brackets whose opening one came before.  A comment counts as one. -/
def readArguments : Nat → List Tree → Option (List Node × List Tree)
  | 0, _ => none
  | fuel + 1, ts =>
    let before := Node.ofComments (Tree.comments ts)
    match Tree.afterMark? ">" ts with
    | some rest => some (before, rest)
    | none => do
      let (node, rest) ← read fuel false (Tree.skipComments ts)
      let after := Node.ofComments (Tree.comments rest)
      match Tree.afterMark? "," rest with
      | some more => do
        let (nodes, rest) ← readArguments fuel more
        return (before ++ node :: after ++ nodes, rest)
      | none => do
        let rest ← Tree.afterMark? ">" rest
        return (before ++ node :: after, rest)

/-- Steps over a return type: a type, or a predicate on a parameter. -/
def skipReturn : Nat → Bool → List Tree → Option (List Tree)
  | 0, _, _ => none
  | fuel + 1, line, ts =>
    let subject :=
      match Tree.nextWord? ts with
      | some ("asserts", rest) =>
        if Tree.opensLine rest then none
        else
          match Tree.nextWord? rest with
          | some (_, after) => some (after, true)
          | none => none
      | some (_, rest) => if (Tree.afterWord? "is" rest).isSome then some (rest, false) else none
      | none => none
    match subject with
    | some (rest, asserted) =>
      match if Tree.opensLine rest then none else Tree.afterWord? "is" rest with
      | some after => (read fuel line (Tree.skipComments after)).map (·.2)
      | none => if asserted then some rest else none
    | none => (read fuel line ts).map (·.2)

end

/-- Fuel for reading any part of trees. -/
def fuelFor (ts : List Tree) : Nat := 12 * (Tree.listSize ts) + 24

/-- The type at the start of trees. -/
def read? (line : Bool) (ts : List Tree) : Option (Node × List Tree) := read (fuelFor ts) line ts

/-- The type arguments that come next. -/
def arguments? (ts : List Tree) : Option (List Node × List Tree) :=
  (Tree.afterMark? "<" ts).bind (readArguments (fuelFor ts))

/-- What follows the return type at the start of trees. -/
def afterReturn? (line : Bool) (ts : List Tree) : Option (List Tree) :=
  skipReturn (fuelFor ts) line (Tree.skipComments ts)

end TypeReader

end Syntax

end DartModels
